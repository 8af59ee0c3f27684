import NilFlow.Yaml.Token

/-!
# Scanning YAML

Cutting a text into tokens. Where a key begins shows only at its colon, so tokens wait in a queue until it is clear what
goes before them.

* `KeySlot`: where a key may have begun on a level of brackets.
* `Scanner`: the state of a scan.
* `Scanner.approach`: what may stand between tokens.
* `Scanner.fetch`: the next token.
* `Scanner.ready`: fetches tokens until the first of the queue is final.
-/

namespace NilFlow.Yaml

/-- A place where a key may have begun: whether it still is possible, whether nothing but a key can stand there, the
number of its token, and its mark. -/
structure KeySlot where
  possible : Bool
  required : Bool
  token : Nat
  mark : Mark
deriving DecidableEq, Repr

/-- The state of cutting a text into tokens.

Tokens wait in `queue`, after those that were `taken`. There is a slot for every level of brackets, innermost first, and
`heads` lists the tokens at which a key may begin with their levels. Outside all blocks the indentation is minus one;
`outer` holds the indentations of the blocks around the innermost. `limit` bounds the number of fetches. -/
structure Scanner where
  input : Input
  queue : List Token
  taken : Nat
  slot : KeySlot
  slots : List KeySlot
  level : Nat
  heads : List (Nat × Nat)
  keyAllowed : Bool
  indent : Int
  outer : List Int
  depth : Nat
  limit : Nat

def maxDepth : Nat := 10000

namespace Scanner

/-- The scanner at the start of an input with at most so many characters. -/
def start (i : Input) (limit : Nat) : Scanner :=
  { input := i, queue := [], taken := 1, slot := ⟨false, false, 0, .start⟩, slots := [], level := 0, heads := []
    keyAllowed := true, indent := -1, outer := [], depth := 0, limit := limit }

/-- Whether the place is between brackets, where indentation does not count. -/
def inFlow (s : Scanner) : Bool := 0 < s.level

def mark (s : Scanner) : Mark := s.input.mark

/-- The column a plain text or block has to keep. -/
def floor (s : Scanner) : Nat := (s.indent + 1).toNat

def number (s : Scanner) : Nat := s.taken + s.queue.length

def push (s : Scanner) (kind : TokenKind) (m : Mark) : Scanner := { s with queue := s.queue ++ [⟨kind, m⟩] }

/-- The scanner with a token put before the token with a number, or at the end if that one was taken. -/
def insert (s : Scanner) (number : Nat) (kind : TokenKind) (m : Mark) : Scanner :=
  if number < s.taken then s.push kind m
  else { s with queue := s.queue.take (number - s.taken) ++ ⟨kind, m⟩ :: s.queue.drop (number - s.taken) }

def indicator (s : Scanner) (kind : TokenKind) (length : Nat) : Scanner :=
  { s.push kind s.mark with input := s.input.skip length }

/-! ### Keys -/

def missingColon (s : Scanner) (k : KeySlot) : SyntaxError := .reading k.mark s.mark "could not find expected ':'"

/-- The scanner without a token among those where a key may begin. -/
def unlist (s : Scanner) (number : Nat) : Scanner := { s with heads := s.heads.filter (·.1 ≠ number) }

def dropKey (s : Scanner) : Except SyntaxError Scanner :=
  if !s.slot.possible then .ok s
  else if s.slot.required then .error (s.missingColon s.slot)
  else .ok ({ s with slot := { s.slot with possible := false } }.unlist s.slot.token)

/-- Notes that a key may begin here. -/
def saveKey (s : Scanner) : Except SyntaxError Scanner :=
  if s.keyAllowed then
    let required := !s.inFlow && s.indent = s.mark.column
    s.dropKey.map fun s =>
      { s with
        slot := ⟨true, required, s.number, s.mark⟩
        heads := (s.number, s.level) :: s.heads.filter fun h => s.taken ≤ h.1 && h.1 ≠ s.number }
  else .ok s

/-- Whether a key that began at a slot can still end here: on the same line, and not too far away. -/
def inReach (s : Scanner) (k : KeySlot) : Except SyntaxError Bool :=
  if !k.possible then .ok false
  else if k.mark.line < s.mark.line || k.mark.index + 1024 < s.mark.index then
    if k.required then .error (s.missingColon k) else .ok false
  else .ok true

/-! ### Indentation -/

/-- Closes the blocks indented further than a column: the remaining indentations and the tokens. -/
def closeBlocks (column : Int) (m : Mark) : Int → List Int → List Token → Int × List Int × List Token
  | indent, [], closed => (indent, [], closed)
  | indent, i :: outer, closed =>
    if column < indent then closeBlocks column m i outer (⟨.blockEnd, m⟩ :: closed) else (indent, i :: outer, closed)

/-- Closes the blocks indented further than a column, unless between brackets. -/
def unroll (s : Scanner) (column : Int) (m : Mark) : Scanner :=
  if s.inFlow then s
  else
    let (indent, outer, closed) := closeBlocks column m s.indent s.outer []
    { s with indent := indent, outer := outer, depth := s.depth - closed.length, queue := s.queue ++ closed }

def tooDeep (s : Scanner) (k : KeySlot) : SyntaxError :=
  .reading k.mark s.mark ("exceeded max depth of " ++ maxDepth.repr)

/-- Opens a block at a column, before the token with a number, unless one is open there already. -/
def roll (s : Scanner) (column number : Nat) (kind : TokenKind) (m : Mark) : Except SyntaxError Scanner :=
  if s.inFlow || (column : Int) ≤ s.indent then .ok s
  else if maxDepth ≤ s.depth then .error (s.tooDeep s.slot)
  else .ok { s.insert number kind m with indent := column, outer := s.indent :: s.outer, depth := s.depth + 1 }

/-! ### Blanks and comments -/

/-- What is being skipped between tokens: the start of a line, blanks, a comment, or so many characters up to the next
comment. -/
inductive Skipping where
  | lineStart
  | blanks
  | comment
  | toComment (count : Nat)

/-- The number of blanks and line ends up to what follows them, and whether that is a comment. No more than a piece of
the text is looked at. -/
def commentAhead : List Char → Nat → Nat × Bool
  | [], n => (n, false)
  | c :: rest, n =>
    if pieceSize ≤ n then (n, false)
    else if c = '#' then (n, true)
    else if isBlank c || c = '\n' || c = '\r' then commentAhead rest (n + width c)
    else (n, false)

/-- Skips blanks, comments and line ends. Tabs count as blanks between brackets and where no key may begin, and before a
comment that follows another comment within a piece of the text. A line on which the text at hand starts with a byte
order mark loses its first character. Gives the input reached and whether a key may begin there. -/
def approach (flow : Bool) : List Char → Place → Bool → Skipping → Except SyntaxError (Input × Bool)
  | [], p, keyAllowed, _ => (p.need 1 []).map fun p => (⟨[], p⟩, keyAllowed)
  | c :: rest, p, keyAllowed, .toComment (n + 1) =>
    match p.cross c rest with
    | .error e => .error e
    | .ok p => approach flow rest p keyAllowed (.toComment (n + 1 - width c))
  | c :: rest, p, keyAllowed, .toComment 0 =>
    match p.cross c rest with
    | .error e => .error e
    | .ok p => approach flow rest p keyAllowed .comment
  | c :: rest, p, keyAllowed, .comment =>
    if isBreak c then
      let (count, another) := if c = '\n' || c = '\r' then commentAhead rest (width c) else (1, false)
      match p.need (min (count + 1) pieceSize) (c :: rest) with
      | .error e => .error e
      | .ok p =>
        match p.cross c rest with
        | .error e => .error e
        | .ok p =>
          if another then approach flow rest p keyAllowed (.toComment (count - width c))
          else approach flow rest p (keyAllowed || !flow) .lineStart
    else
      match p.cross c rest with
      | .error e => .error e
      | .ok p => approach flow rest p keyAllowed .comment
  | c :: rest, p, keyAllowed, skipping =>
    match p.need 1 (c :: rest) with
    | .error e => .error e
    | .ok p =>
      let atStart := match skipping with
        | .lineStart => true
        | _ => false
      if atStart && p.mark.column = 0 && p.headed then
        match (p.past c).need 1 rest with
        | .error e => .error e
        | .ok p => approach flow rest p keyAllowed .blanks
      else
        let blank := c = ' ' || (c = '\t' && (flow || !keyAllowed))
        if !blank && c ≠ '#' && !isBreak c then .ok (⟨c :: rest, p⟩, keyAllowed)
        else
          match p.cross c rest with
          | .error e => .error e
          | .ok p =>
            if blank then approach flow rest p keyAllowed .blanks
            else if c = '#' then approach flow rest p keyAllowed .comment
            else approach flow rest p (keyAllowed || !flow) .lineStart

/-- The scanner before its next token, with the blocks closed that end there. -/
def approached (s : Scanner) : Except SyntaxError Scanner :=
  (approach s.inFlow s.input.rest s.input.place s.keyAllowed .lineStart).map fun (i, keyAllowed) =>
    { s with input := i, keyAllowed := keyAllowed }.unroll i.mark.column s.mark

/-- Skips a comment behind a token, on the line where the token ended and not further away than a piece of the text. -/
def skipLineComment (s : Scanner) : Except SyntaxError Scanner :=
  if 0 < s.input.place.newlines then .ok s
  else
    let ahead := s.input.rest.take pieceSize
    let blanks := (ahead.takeWhile isBlank).length
    match s.input.need (min (blanks + 1) pieceSize) with
    | .error e => .error e
    | .ok i =>
      if (ahead.drop blanks).head? = some '#' then (i.dropWhile (!isBreak ·)).map fun i => { s with input := i }
      else .ok { s with input := i }

/-! ### Tokens -/

def endStream (s : Scanner) : Except SyntaxError Scanner :=
  let m := s.mark
  let m := if m.column = 0 then m else ⟨m.index, m.line + 1, 0⟩
  let s := { s with input := ⟨[], { s.input.place with mark := m }⟩ }
  (s.unroll (-1) m).dropKey.map fun s => { s.push .streamEnd m with keyAllowed := false }

/-- A directive or document marker, which ends everything open. -/
def atDocument (s : Scanner) (next : Scanner → Except SyntaxError Scanner) : Except SyntaxError Scanner :=
  match (s.unroll (-1) s.mark).dropKey with
  | .error e => .error e
  | .ok s => next { s with keyAllowed := false }

/-- The scanner after a token that was read from its input. -/
def took (s : Scanner) (r : Except SyntaxError (TokenKind × Input)) : Except SyntaxError Scanner :=
  r.map fun (kind, i) => { s.push kind s.mark with input := i }

/-- An opening bracket, which may begin a key. -/
def openFlow (s : Scanner) (kind : TokenKind) : Except SyntaxError Scanner :=
  match s.saveKey with
  | .error e => .error e
  | .ok s =>
    let slot := ⟨false, false, s.number, s.mark⟩
    if maxDepth ≤ s.level then .error (s.tooDeep slot)
    else .ok { s.indicator kind 1 with slot := slot, slots := s.slot :: s.slots, level := s.level + 1
                                       keyAllowed := true }

/-- A closing bracket. Its level is left, and no key begins at the token that its slot names. -/
def closeFlow (s : Scanner) (kind : TokenKind) : Except SyntaxError Scanner :=
  s.dropKey.map fun s =>
    let s := { s.indicator kind 1 with keyAllowed := false }
    match s.slots with
    | [] => s
    | k :: outer => { s.unlist s.slot.token with slot := k, slots := outer, level := s.level - 1 }

def flowEntry (s : Scanner) : Except SyntaxError Scanner :=
  s.dropKey.map fun s => { s.indicator .flowEntry 1 with keyAllowed := true }

def blockEntry (s : Scanner) : Except SyntaxError Scanner := do
  if !s.inFlow && !s.keyAllowed then
    throw (.reading s.mark s.mark "block sequence entries are not allowed in this context")
  let s ← (← s.roll s.mark.column s.number .blockSequenceStart s.mark).dropKey
  return { s.indicator .blockEntry 1 with keyAllowed := true }

def explicitKey (s : Scanner) : Except SyntaxError Scanner := do
  if !s.inFlow && !s.keyAllowed then
    throw (.reading s.mark s.mark "mapping keys are not allowed in this context")
  let s ← (← s.roll s.mark.column s.number .blockMappingStart s.mark).dropKey
  return { s.indicator .key 1 with keyAllowed := !s.inFlow }

/-- The colon of a value. What was a possible key turns out to be one. -/
def value (s : Scanner) : Except SyntaxError Scanner := do
  let k := s.slot
  let found ← s.inReach k
  let s := { s with slot := { k with possible := false } }
  if found then
    let s ← (s.insert k.token .key k.mark).roll k.mark.column k.token .blockMappingStart k.mark
    return { (s.unlist k.token).indicator .value 1 with keyAllowed := false }
  else
    if !s.inFlow && !s.keyAllowed then
      throw (.reading s.mark s.mark "mapping values are not allowed in this context")
    let s ← s.roll s.mark.column s.number .blockMappingStart s.mark
    return { s.indicator .value 1 with keyAllowed := !s.inFlow }

def named (s : Scanner) (kind : String → TokenKind) : Except SyntaxError Scanner := do
  let s ← s.saveKey
  { s with keyAllowed := false }.took ((readName s.mark (s.input.skip 1)).map fun (n, i) => (kind n, i))

def tag (s : Scanner) : Except SyntaxError Scanner := do
  let s ← s.saveKey
  { s with keyAllowed := false }.took (readTag s.mark s.input)

def quotedToken (r : ScalarRead) : TokenKind × Input := (.scalar r.text .quoted, r.input)

def block (s : Scanner) (literal : Bool) : Except SyntaxError Scanner := do
  let s ← s.dropKey
  { s with keyAllowed := true }.took ((blockScalar s.mark literal s.floor (s.input.skip 1)).map quotedToken)

def quotedScalar (s : Scanner) (double : Bool) : Except SyntaxError Scanner := do
  let s ← s.saveKey
  let i ← (s.input.skip 1).need 4
  let r :=
    if double then doubleQuoted s.mark i.rest i.place .none [] none else singleQuoted s.mark i.rest i.place .none []
  { s with keyAllowed := false }.took (r.map quotedToken)

/-- A plain scalar. After its line ended, a key may begin. -/
def plainScalar (s : Scanner) : Except SyntaxError Scanner := do
  let s ← s.saveKey
  let r ← plain s.mark s.inFlow s.floor s.input.rest s.input.place .none []
  return { s.push (.scalar r.text .plain) s.mark with input := r.input, keyAllowed := r.broken }

/-- Whether a plain scalar may start with a character, given what follows it. -/
def startsPlain (flow : Bool) (c : Char) (rest : List Char) : Bool :=
  if c = '-' then !rest.head?.any isBlank
  else if c = '?' || c = ':' then !flow && !endsWord rest
  else !(isBlank c || isBreak c ||
    [',', '[', ']', '\x7b', '\x7d', '#', '&', '*', '!', '|', '>', '\'', '"', '%', '@', '\x60'].contains c)

/-- The token that starts with a character, within a document. -/
def token (s : Scanner) (c : Char) (rest : List Char) : Except SyntaxError Scanner :=
  if c = '[' then s.openFlow .flowSequenceStart
  else if c = '\x7b' then s.openFlow .flowMappingStart
  else if c = ']' then s.closeFlow .flowSequenceEnd
  else if c = '\x7d' then s.closeFlow .flowMappingEnd
  else if c = ',' then s.flowEntry
  else if c = '-' && endsWord rest then s.blockEntry
  else if c = '?' && (s.inFlow || endsWord rest) then s.explicitKey
  else if c = ':' && (s.inFlow || endsWord rest) then s.value
  else if c = '*' then s.named .reference
  else if c = '&' then s.named .anchor
  else if c = '!' then s.tag
  else if c = '|' && !s.inFlow then s.block true
  else if c = '>' && !s.inFlow then s.block false
  else if c = '\'' then s.quotedScalar false
  else if c = '"' then s.quotedScalar true
  else if startsPlain s.inFlow c rest then s.plainScalar
  else .error (.reading s.mark s.mark "found character that cannot start any token")

/-- The next token. A comment behind it belongs to it, unless it is a dash. -/
def fetch (s : Scanner) : Except SyntaxError Scanner := do
  let s ← s.approached
  let i ← s.input.need 4
  let s := { s with input := i }
  match i.rest with
  | [] => s.endStream
  | c :: rest =>
    if s.mark.column = 0 && c = '%' then s.atDocument fun s => s.took (readDirective s.input)
    else if Input.isMarker (c :: rest) s.mark then
      s.atDocument fun s => .ok (s.indicator (if c = '-' then .documentStart else .documentEnd) 3)
    else
      let s ← s.token c rest
      if s.queue.getLast?.any (·.kind = .blockEntry) then return s else s.skipLineComment

/-! ### The queue -/

/-- Whether the first token of the queue is final: two more wait behind it, and no key can begin at it any more. -/
def settled (s : Scanner) : Except SyntaxError Bool :=
  match s.queue with
  | _ :: _ :: _ :: _ =>
    match s.heads.lookup s.taken with
    | none => .ok true
    | some level =>
      match (s.slot :: s.slots)[s.level - level]? with
      | none => .ok true
      | some k => (s.inReach k).map (!·)
  | _ => .ok false

def fetchUntil : Nat → Scanner → Except SyntaxError Scanner
  | 0, _ => .error .overlong
  | fuel + 1, s =>
    match s.settled with
    | .error e => .error e
    | .ok true => .ok s
    | .ok false =>
      match s.fetch with
      | .error e => .error e
      | .ok s => fetchUntil fuel s

/-- The scanner with a final token at the front of the queue. -/
def ready (s : Scanner) : Except SyntaxError Scanner := fetchUntil s.limit s

def advance (s : Scanner) : Scanner := { s with queue := s.queue.tail, taken := s.taken + 1 }

end Scanner

end NilFlow.Yaml
