import NilFlow.Yaml.Source

/-!
# YAML scalars

The four ways to write a text in YAML.

* `Gap`: blanks and line ends between two words, and what they stand for.
* `plain`: a text without quotes.
* `singleQuoted`, `doubleQuoted`: texts between quotes.
* `blockScalar`: an indented text with its lines kept or folded.
-/

namespace NilFlow.Yaml

/-! ## Gaps -/

/-- What separates two words of a text: blanks on a line, or line ends, of which the first is kept apart. -/
structure Gap where
  blanks : List Char
  first : List Char
  more : List Char
  broken : Bool
deriving DecidableEq, Repr, Inhabited

namespace Gap

def none : Gap := ⟨[], [], [], false⟩

/-- A line end that leaves nothing behind. -/
def continued : Gap := ⟨[], [], [], true⟩

def isNone (g : Gap) : Bool := g.blanks.isEmpty && !g.broken

/-- The gap with another blank. Blanks next to line ends do not count. -/
def addBlank (g : Gap) (c : Char) : Gap := if g.broken then g else { g with blanks := g.blanks ++ [c] }

def addBreak (g : Gap) (c : Char) : Gap :=
  if g.broken then { g with more := g.more ++ [breakText c] } else ⟨[], [breakText c], [], true⟩

def add (g : Gap) (c : Char) : Gap := if isBreak c then g.addBreak c else g.addBlank c

/-- What a gap stands for: a single line feed is folded into a blank, and of several the first is left out. -/
def text (g : Gap) : List Char :=
  if g.broken then
    if g.first = ['\n'] then (if g.more.isEmpty then [' '] else g.more) else g.first ++ g.more
  else g.blanks

end Gap

/-- A scalar that was read: its text, whether line ends follow it, and what remains. -/
structure ScalarRead where
  text : String
  broken : Bool
  input : Input

/-- The place before a word: after a gap, the next four characters are looked at for a document marker. -/
def Gap.leave (g : Gap) (p : Place) (cs : List Char) : Except SyntaxError Place :=
  if g.isNone then .ok p else p.need 4 cs

/-! ## Plain text -/

/-- Whether a character ends a plain text: a colon before a blank, or, between brackets, a character of the
bracket's own. -/
def endsPlain (inFlow : Bool) (c : Char) (rest : List Char) : Bool :=
  (c = ':' && endsWord rest) || (inFlow && [',', '?', '[', ']', '\x7b', '\x7d'].contains c)

/-- Whether a plain text stops before a character: at a document marker, a comment or an end. -/
def stopsPlain (inFlow : Bool) (m : Mark) (g : Gap) (c : Char) (rest : List Char) : Bool :=
  Input.isMarker (c :: rest) m || (c = '#' && !g.isNone) || endsPlain inFlow c rest

/-- Reads a plain text. The characters so far are held last first. -/
def plain (began : Mark) (inFlow : Bool) (indent : Nat) : List Char → Place → Gap → List Char →
    Except SyntaxError ScalarRead
  | [], p, g, done => .ok ⟨String.ofList done.reverse, g.broken, ⟨[], p⟩⟩
  | c :: rest, p, g, done =>
    if isBlank c && g.broken && p.mark.column < indent && c = '\t' then
      .error (.reading began p.mark "found a tab character that violates indentation")
    else if isBlank c || isBreak c then
      match p.cross c rest with
      | .error e => .error e
      | .ok p => plain began inFlow indent rest p (g.add c) done
    else if !inFlow && !g.isNone && p.mark.column < indent then
      .ok ⟨String.ofList done.reverse, g.broken, ⟨c :: rest, p⟩⟩
    else
      match g.leave p (c :: rest) with
      | .error e => .error e
      | .ok p =>
        if stopsPlain inFlow p.mark g c rest then .ok ⟨String.ofList done.reverse, g.broken, ⟨c :: rest, p⟩⟩
        else
          match (p.after c).need 2 rest with
          | .error e => .error e
          | .ok p => plain began inFlow indent rest p .none (c :: (g.text.reverse ++ done))

/-! ## Quoted text -/

def unclosed (began found : Mark) : SyntaxError := .reading began found "found unexpected end of stream"

def interrupted (began found : Mark) : SyntaxError := .reading began found "found unexpected document indicator"

/-- Reads a text up to its closing single quote; a quote inside is written twice. -/
def singleQuoted (began : Mark) : List Char → Place → Gap → List Char → Except SyntaxError ScalarRead
  | [], p, _, _ => .error (unclosed began p.mark)
  | '\'' :: '\'' :: rest, p, g, done =>
    match g.leave p ('\'' :: '\'' :: rest) with
    | .error e => .error e
    | .ok p =>
      match ((p.after '\'').after '\'').need 2 rest with
      | .error e => .error e
      | .ok p => singleQuoted began rest p .none ('\'' :: (g.text.reverse ++ done))
  | c :: rest, p, g, done =>
    if isBlank c || isBreak c then
      match p.cross c rest with
      | .error e => .error e
      | .ok p => singleQuoted began rest p (g.add c) done
    else
      match g.leave p (c :: rest) with
      | .error e => .error e
      | .ok p =>
        if Input.isMarker (c :: rest) p.mark then .error (interrupted began p.mark)
        else if c = '\'' then .ok ⟨String.ofList (g.text.reverse ++ done).reverse, false, ⟨rest, p.after c⟩⟩
        else
          match (p.after c).need 2 rest with
          | .error e => .error e
          | .ok p => singleQuoted began rest p .none (c :: (g.text.reverse ++ done))

def escapeValue? : Char → Option Char
  | '0' => some '\x00'
  | 'a' => some '\x07'
  | 'b' => some '\x08'
  | 't' | '\t' => some '\t'
  | 'n' => some '\n'
  | 'v' => some '\x0b'
  | 'f' => some '\x0c'
  | 'r' => some '\r'
  | 'e' => some '\x1b'
  | ' ' => some ' '
  | '"' => some '"'
  | '\'' => some '\''
  | '\\' => some '\\'
  | 'N' => some '\u0085'
  | '_' => some '\u00a0'
  | 'L' => some '\u2028'
  | 'P' => some '\u2029'
  | _ => none

def hexValue? (c : Char) : Option Nat :=
  if c.isDigit then some (c.toNat - '0'.toNat)
  else if 'a' ≤ c && c ≤ 'f' then some (c.toNat - 'a'.toNat + 10)
  else if 'A' ≤ c && c ≤ 'F' then some (c.toNat - 'A'.toNat + 10)
  else none

def numberedChar (digits : List Char) : Except String Char :=
  match digits.mapM hexValue? with
  | none => .error "did not find expected hexdecimal number"
  | some ds =>
    let n := ds.foldl (fun n d => 16 * n + d) 0
    if n.isValidChar then .ok (Char.ofNat n) else .error "found invalid Unicode character escape code"

def escapeLength? : Char → Option Nat
  | 'x' => some 2
  | 'u' => some 4
  | 'U' => some 8
  | _ => none

/-- What an escape letter asks for: the end of a line to be left out, a character, or a number of digits. -/
inductive Escape where
  | lineEnd
  | char (c : Char)
  | digits (count : Nat)

/-- What an escape letter asks for. -/
def escape? (e : Char) : Option Escape :=
  if isBreak e then some .lineEnd else ((escapeValue? e).map .char).or ((escapeLength? e).map .digits)

/-- Reads a text up to its closing double quote. While the digits of an escape are read, `digits` holds how many are
missing and those so far. -/
def doubleQuoted (began : Mark) : List Char → Place → Gap → List Char → Option (Nat × List Char) →
    Except SyntaxError ScalarRead
  | [], p, _, _, none => .error (unclosed began p.mark)
  | [], p, _, _, some _ => .error (.reading began p.mark "did not find expected hexdecimal number")
  | c :: rest, p, g, done, some (missing, digits) =>
    if (hexValue? c).isNone then .error (.reading began p.mark "did not find expected hexdecimal number")
    else if 1 < missing then doubleQuoted began rest (p.after c) g done (some (missing - 1, digits ++ [c]))
    else match numberedChar (digits ++ [c]) with
      | .error problem => .error (.reading began p.mark problem)
      | .ok d =>
        match (p.after c).need 2 rest with
        | .error e => .error e
        | .ok p => doubleQuoted began rest p .none (d :: done) none
  | '\\' :: letter :: rest, p, g, done, none =>
    let before := g.text.reverse ++ done
    match g.leave p ('\\' :: letter :: rest) with
    | .error e => .error e
    | .ok p =>
      let q := p.after '\\'
      match escape? letter with
      | some .lineEnd =>
        match q.cross letter rest with
        | .error e => .error e
        | .ok p => doubleQuoted began rest p .continued before none
      | some (.char c) =>
        match (q.after letter).need 2 rest with
        | .error e => .error e
        | .ok p => doubleQuoted began rest p .none (c :: before) none
      | some (.digits n) =>
        match (q.after letter).need n rest with
        | .error e => .error e
        | .ok p => doubleQuoted began rest p .none before (some (n, []))
      | none => .error (.reading began p.mark "found unknown escape character")
  | c :: rest, p, g, done, none =>
    if isBlank c || isBreak c then
      match p.cross c rest with
      | .error e => .error e
      | .ok p => doubleQuoted began rest p (g.add c) done none
    else
      match g.leave p (c :: rest) with
      | .error e => .error e
      | .ok p =>
        if Input.isMarker (c :: rest) p.mark then .error (interrupted began p.mark)
        else if c = '"' then .ok ⟨String.ofList (g.text.reverse ++ done).reverse, false, ⟨rest, p.after c⟩⟩
        else if c = '\\' then .error (.reading began p.mark "found unknown escape character")
        else
          match (p.after c).need 2 rest with
          | .error e => .error e
          | .ok p => doubleQuoted began rest p .none (c :: (g.text.reverse ++ done)) none

/-! ## Block text -/

inductive Chomping where
  | strip
  /-- One of them stays. -/
  | clip
  | keep
deriving DecidableEq, Repr

/-- The state of reading a block: its indentation when it is known, the widest indentation seen, the text so far, last
first, the last line's end, the empty lines after it, and whether the last line started with a blank. -/
structure Block where
  indent : Option Nat
  widest : Nat
  done : List Char
  lineEnd : List Char
  empty : List Char
  indented : Bool

namespace Block

/-- The block with the first character of another line. Folded lines are joined by a blank, except next to lines that
are indented further. -/
def startLine (b : Block) (literal : Bool) (c : Char) : Block :=
  let folds := !literal && !b.indented && !isBlank c && b.lineEnd = ['\n']
  let joint := if folds then (if b.empty.isEmpty then [' '] else []) else b.lineEnd
  { b with done := c :: (b.empty.reverse ++ (joint.reverse ++ b.done)), lineEnd := [], empty := []
           indented := isBlank c }

def text (b : Block) (chomping : Chomping) : String :=
  String.ofList (b.done.reverse ++
    match chomping with
    | .strip => []
    | .clip => b.lineEnd
    | .keep => b.lineEnd ++ b.empty)

end Block

/-- Reads the lines of a block, which are indented at least to `floor`; `inLine` tells whether a line has begun. -/
def blockLines (began : Mark) (literal : Bool) (floor : Nat) : List Char → Place → Bool → Block →
    Except SyntaxError (Block × Input)
  | [], p, _, b => .ok (b, ⟨[], p⟩)
  | c :: rest, p, true, b =>
    match p.cross c rest with
    | .error e => .error e
    | .ok p =>
      if isBreak c then blockLines began literal floor rest p false { b with lineEnd := [breakText c] }
      else blockLines began literal floor rest p true { b with done := c :: b.done }
  | c :: rest, p, false, b =>
    let column := p.mark.column
    let below := b.indent.all (column < ·)
    let indent := b.indent.getD (max b.widest (max floor 1))
    let indents := c = ' ' && below
    if c = '\t' && below then
      .error (.reading began p.mark "found a tab character where an indentation space is expected")
    else if !indents && !isBreak c && column ≠ indent then .ok (b, ⟨c :: rest, p⟩)
    else
      match p.cross c rest with
      | .error e => .error e
      | .ok p =>
        if indents then
          blockLines began literal floor rest p false { b with widest := max b.widest (column + 1) }
        else if isBreak c then blockLines began literal floor rest p false { b with empty := b.empty ++ [breakText c] }
        else blockLines began literal floor rest p true ({ b with indent := some indent }.startLine literal c)

def chompingOf? : Char → Option Chomping
  | '+' => some .keep
  | '-' => some .strip
  | _ => none

/-- The marks behind the indicator of a block: chomping and indentation, in any order, and how many they are. -/
def blockHeader : List Char → Chomping × Option Nat × Nat
  | a :: b :: _ =>
    match chompingOf? a, chompingOf? b with
    | some k, _ => if b.isDigit then (k, some (b.toNat - '0'.toNat), 2) else (k, none, 1)
    | none, some k => if a.isDigit then (k, some (a.toNat - '0'.toNat), 2) else (.clip, none, 0)
    | none, none => if a.isDigit then (.clip, some (a.toNat - '0'.toNat), 1) else (.clip, none, 0)
  | [a] =>
    match chompingOf? a with
    | some k => (k, none, 1)
    | none => if a.isDigit then (.clip, some (a.toNat - '0'.toNat), 1) else (.clip, none, 0)
  | [] => (.clip, none, 0)

/-- Reads a block after its indicator, inside a construct that is indented to `floor` less one. -/
def blockScalar (began : Mark) (literal : Bool) (floor : Nat) (i : Input) : Except SyntaxError ScalarRead := do
  let i ← i.need 1
  let (chomping, increment, n) := blockHeader i.rest
  let i := i.skip n
  if increment = some 0 then throw (.reading began i.mark "found an indentation indicator equal to 0")
  let i ← i.dropWhile isBlank
  let i ← if i.rest.head? = some '#' then i.dropWhile (!isBreak ·) else pure i
  if i.rest.head?.any (!isBreak ·) then
    throw (.reading began i.mark "did not find expected comment or line break")
  let i ← i.dropBreak
  let indent := increment.map (floor - 1 + ·)
  let (b, i) ← blockLines began literal floor i.rest i.place false ⟨indent, 0, [], [], [], false⟩
  return ⟨b.text chomping, false, i⟩

end NilFlow.Yaml
