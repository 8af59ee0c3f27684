/-!
# YAML source

The characters of a YAML text with their places.

* `isBlank`, `isBreak`, `endsWord`: the characters that separate words and lines.
* `SyntaxError`: what is wrong with a text, with the line as far as it is told.
* `Mark`, `Place`: a place, and how much of the text after it was taken up.
* `Place.need`: takes up more of a text, a piece at a time.
* `Input`: the text from a place on; `Input.ofText` is the input of a text.
-/

namespace NilFlow.Yaml

/-! ## Characters -/

def isBlank (c : Char) : Bool := c = ' ' || c = '\t'

/-- The ends of lines. In an input, a carriage return stands for itself with the line feed after it. -/
def isBreak (c : Char) : Bool := c = '\n' || c = '\r' || c = '\u0085' || c = '\u2028' || c = '\u2029'

/-- What the end of a line contributes to a text that goes on: a line feed, unless it is a separator of its own. -/
def breakText (c : Char) : Char := if c = '\u2028' || c = '\u2029' then c else '\n'

/-- Whether a text starts with a blank, a line end or nothing at all. -/
def endsWord : List Char → Bool
  | [] => true
  | c :: _ => isBlank c || isBreak c

/-- Letters, digits, underscores and dashes. -/
def isNameChar (c : Char) : Bool := c.isAlphanum || c = '_' || c = '-'

/-- The characters that a text may hold. -/
def isReadable (c : Char) : Bool :=
  c = '\t' || c = '\n' || c = '\r' || (0x20 ≤ c.toNat && c.toNat ≤ 0x7e) || c.toNat = 0x85 ||
    (0xa0 ≤ c.toNat && c.toNat ≤ 0xfffd) || 0x10000 ≤ c.toNat

/-- A text with every carriage return and line feed in one, and lone carriage returns as line feeds. -/
def joinBreaks : List Char → List Char
  | '\r' :: '\n' :: rest => '\r' :: joinBreaks rest
  | c :: rest => (if c = '\r' then '\n' else c) :: joinBreaks rest
  | [] => []

/-- The number of characters of the text that a character of an input stands for. -/
def width (c : Char) : Nat := if c = '\r' then 2 else 1

/-- The number of bytes of the text that a character of an input stands for. -/
def byteWidth (c : Char) : Nat := if c = '\r' then 2 else c.utf8Size

/-! ## Marks -/

/-- A mark: the number of characters before it, and its line and column, counted from zero. -/
structure Mark where
  index : Nat
  line : Nat
  column : Nat
deriving DecidableEq, Repr, Inhabited

namespace Mark

def start : Mark := ⟨0, 0, 0⟩

def past (m : Mark) (c : Char) : Mark := ⟨m.index + width c, m.line, m.column + 1⟩

def after (m : Mark) (c : Char) : Mark := if isBreak c then ⟨m.index + width c, m.line + 1, 0⟩ else m.past c

end Mark

/-! ## Errors -/

/-- What is wrong with a text. A line of zero is not told. -/
structure SyntaxError where
  line : Nat
  problem : String
deriving DecidableEq, Repr, Inhabited

namespace SyntaxError

def message (e : SyntaxError) : String :=
  "yaml: " ++ (if e.line = 0 then "" else "line " ++ e.line.repr ++ ": ") ++ e.problem

def general (problem : String) : SyntaxError := ⟨0, problem⟩

/-- An error in the characters of a construct that began at a mark. The first line is not told. -/
def reading (began found : Mark) (problem : String) : SyntaxError :=
  ⟨if began.line ≠ 0 then began.line + 1 else if found.line ≠ 0 then found.line + 1 else 0, problem⟩

/-- An error in the arrangement of a construct that began at a mark. It is told one line early, the first line not at
all. -/
def arranging (began found : Mark) (problem : String) : SyntaxError :=
  ⟨if began.line ≠ 0 then began.line else found.line, problem⟩

/-- The error of a scan that takes more steps than there are characters, which does not happen. -/
def overlong : SyntaxError := general "unknown problem parsing YAML content"

end SyntaxError

/-! ## Places -/

/-- A place in a text that is taken up in pieces: its mark, how many characters after it are at hand, whether what is
at hand was last filled up at a byte order mark, and how many lines ended since the last character that is no blank.
The end of the text counts among the characters at hand once it was asked for. -/
structure Place where
  mark : Mark
  atHand : Nat
  headed : Bool
  newlines : Nat
deriving DecidableEq, Repr, Inhabited

def pieceSize : Nat := 512

/-- What follows some characters at hand. -/
def beyond : Nat → List Char → List Char
  | n + 1, c :: rest => beyond (n + 1 - width c) rest
  | _, rest => rest

/-- Takes up pieces of a text until enough characters are at hand: how many there are then. `room` is what is left of
the current piece. A piece with a control character is refused as a whole. -/
def takeUp (wanted : Nat) : Nat → Nat → List Char → Except SyntaxError Nat
  | atHand, _, [] => .ok (if atHand < wanted then atHand + 1 else atHand)
  | atHand, room, c :: rest =>
    if room < byteWidth c && wanted ≤ atHand then .ok atHand
    else if isReadable c then
      let room := if room < byteWidth c then pieceSize else room
      takeUp wanted (atHand + width c) (room - byteWidth c) rest
    else .error (.general "control characters are not allowed")

namespace Place

def after (p : Place) (c : Char) : Place :=
  { p with
    mark := p.mark.after c
    atHand := p.atHand - width c
    newlines := if isBreak c then p.newlines + 1 else if isBlank c then p.newlines else 0 }

/-- The place after a character that counts as one on a line, whatever it is. -/
def past (p : Place) (c : Char) : Place :=
  { p with mark := p.mark.past c, atHand := p.atHand - width c, newlines := 0 }

/-- The place with at least some characters of the text after it at hand. -/
def need (p : Place) (wanted : Nat) (rest : List Char) : Except SyntaxError Place :=
  if wanted ≤ p.atHand then .ok p
  else match takeUp wanted p.atHand 0 (beyond p.atHand rest) with
    | .error e => .error e
    | .ok atHand => .ok { p with atHand := atHand, headed := rest.head? = some '\ufeff' }

/-- The place after a character, with the next character at hand. The end of a line may take two characters. -/
def cross (p : Place) (c : Char) (rest : List Char) : Except SyntaxError Place :=
  if isBreak c then
    match p.need 2 (c :: rest) with
    | .error e => .error e
    | .ok p => (p.after c).need 1 rest
  else (p.after c).need 1 rest

end Place

/-! ## Inputs -/

/-- The text still to be read, with its place. -/
structure Input where
  rest : List Char
  place : Place
deriving DecidableEq, Repr, Inhabited

namespace Input

def mark (i : Input) : Mark := i.place.mark

/-- The input with at least some characters at hand. -/
def need (i : Input) (wanted : Nat) : Except SyntaxError Input := (i.place.need wanted i.rest).map (⟨i.rest, ·⟩)

def skip (i : Input) (n : Nat) : Input := ⟨i.rest.drop n, (i.rest.take n).foldl Place.after i.place⟩

/-- Reads characters of a class. Those so far are held last first. -/
def readWhile (p : Char → Bool) : List Char → Place → List Char → Except SyntaxError (List Char × Input)
  | [], q, done => (q.need 1 []).map fun q => (done.reverse, ⟨[], q⟩)
  | c :: rest, q, done =>
    match q.need 1 (c :: rest) with
    | .error e => .error e
    | .ok q => if p c then readWhile p rest (q.after c) (c :: done) else .ok (done.reverse, ⟨c :: rest, q⟩)

/-- The characters up to the first that is none of a class, and the input from there on. -/
def span (i : Input) (p : Char → Bool) : Except SyntaxError (List Char × Input) := readWhile p i.rest i.place []

def dropWhile (i : Input) (p : Char → Bool) : Except SyntaxError Input := (i.span p).map (·.2)

/-- The input after the end of a line, if it stands before one. -/
def dropBreak (i : Input) : Except SyntaxError Input :=
  match i.rest with
  | [] => .ok i
  | c :: rest => if isBreak c then (i.place.cross c rest).map (⟨rest, ·⟩) else .ok i

/-- Whether a document marker stands at a place: three dashes or points at the start of a line, and nothing behind. -/
def isMarker (cs : List Char) (m : Mark) : Bool :=
  m.column = 0 && match cs with
    | '-' :: '-' :: '-' :: rest => endsWord rest
    | '.' :: '.' :: '.' :: rest => endsWord rest
    | _ => false

/-- The input of a text, without a byte order mark at its start. -/
def ofText (text : String) : Except SyntaxError Input :=
  let (chars, room) := match text.toList with
    | '\ufeff' :: rest => (joinBreaks rest, pieceSize - '\ufeff'.utf8Size)
    | chars => (joinBreaks chars, pieceSize)
  (takeUp 1 0 room chars).map fun atHand => ⟨chars, .start, atHand, chars.head? = some '\ufeff', 0⟩

end Input

end NilFlow.Yaml
