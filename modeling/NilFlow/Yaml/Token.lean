import NilFlow.Text.Utf8
import NilFlow.Yaml.Scalar

/-!
# YAML tokens

The words of a YAML text: scalars, names and indicators, and the starts and ends of blocks that indentation implies.

* `TokenKind`, `Token`: the tokens with their marks.
* `readName`: the names of anchors and aliases.
* `readUri`, `readTag`: tags, in which bytes may be written as numbers.
* `readDirective`: the directives before a document.
-/

namespace NilFlow.Yaml

inductive ScalarStyle where
  | plain
  /-- In quotes or as a block, which makes it a string. -/
  | quoted
deriving DecidableEq, Repr

/-- The kinds of tokens. -/
inductive TokenKind where
  | streamEnd
  | version (major minor : Nat)
  | tagDirective (handle lead : String)
  | documentStart
  | documentEnd
  | blockSequenceStart
  | blockMappingStart
  | blockEnd
  | flowSequenceStart
  | flowSequenceEnd
  | flowMappingStart
  | flowMappingEnd
  | blockEntry
  | flowEntry
  | key
  | value
  | reference (name : String)
  | anchor (name : String)
  /-- A tag, by its handle and the rest. -/
  | tag (handle rest : String)
  | scalar (text : String) (style : ScalarStyle)
deriving DecidableEq, Repr

structure Token where
  kind : TokenKind
  mark : Mark
deriving DecidableEq, Repr

/-! ## Names -/

/-- Reads the name of an anchor or alias, which is followed by a blank or an indicator. -/
def readName (began : Mark) (i : Input) : Except SyntaxError (String × Input) := do
  let (name, i) ← i.span isNameChar
  let ends := endsWord i.rest || i.rest.head?.any ['?', ':', ',', ']', '\x7d', '%', '@', '\x60'].contains
  if name.isEmpty || !ends then
    throw (.reading began i.mark "did not find expected alphabetic or numeric character")
  return (String.ofList name, i)

/-! ## Tags -/

/-- The characters of a tag, other than the sign that writes a byte as a number. -/
def isTagChar (c : Char) : Bool :=
  isNameChar c ||
    [';', '/', '?', ':', '@', '&', '=', '+', '$', ',', '.', '!', '~', '*', '\'', '(', ')', '[', ']'].contains c

/-- The bytes of a character that is being written as numbers: how many are missing, and those so far. -/
structure Octets where
  missing : Nat
  bytes : List Nat

namespace Octets

/-- No bytes. -/
def none : Octets := ⟨0, []⟩

/-- The bytes with another one, or why it does not fit: the first byte tells how many follow, and all others continue
it. -/
def add (o : Octets) (byte : Nat) : Except String Octets :=
  if o.missing = 0 then
    if byte < 0x80 then .ok ⟨0, [byte]⟩
    else match utf8Trail? byte with
      | some (trail, _) => .ok ⟨trail, [byte]⟩
      | Option.none => .error "found an incorrect leading UTF-8 octet"
  else if 0x80 ≤ byte && byte < 0xc0 then .ok ⟨o.missing - 1, o.bytes ++ [byte]⟩
  else .error "found an incorrect trailing UTF-8 octet"

end Octets

def missingOctet (began found : Mark) : SyntaxError := .reading began found "did not find URI escaped octet"

/-- Reads the characters of a tag; bytes may be written as percent signs with two digits. The characters so far are held
last first. -/
def readUri (began : Mark) : List Char → Place → Octets → List Char → Except SyntaxError (List Char × Input)
  | [], p, o, done =>
    if o.missing ≠ 0 then .error (missingOctet began p.mark)
    else (p.need 1 []).map fun p => (done.reverse, ⟨[], p⟩)
  | '%' :: high :: low :: rest, p, o, done =>
    match p.need 3 ('%' :: high :: low :: rest), hexValue? high, hexValue? low with
    | .error e, _, _ => .error e
    | .ok p, some h, some l =>
      match o.add (16 * h + l) with
      | .error problem => .error (.reading began p.mark problem)
      | .ok o =>
        let p := ((p.after '%').after high).after low
        if o.missing = 0 then readUri began rest p .none ((decodeUtf8 o.bytes).reverse ++ done)
        else readUri began rest p o done
    | .ok p, _, _ => .error (missingOctet began p.mark)
  | c :: rest, p, o, done =>
    if o.missing ≠ 0 || c = '%' then .error (missingOctet began p.mark)
    else match p.need 1 (c :: rest) with
      | .error e => .error e
      | .ok p =>
        if isTagChar c then readUri began rest (p.after c) o (c :: done) else .ok (done.reverse, ⟨c :: rest, p⟩)

/-- Reads the characters of a tag, of which there has to be one. -/
def readUri1 (began : Mark) (i : Input) : Except SyntaxError (String × Input) := do
  let (uri, j) ← readUri began i.rest i.place .none []
  if uri.isEmpty then throw (.reading began j.mark "did not find expected tag URI")
  return (String.ofList uri, j)

/-- Reads a tag in angle brackets, after the opening one. -/
def readVerbatimTag (began : Mark) (i : Input) : Except SyntaxError (TokenKind × Input) := do
  let (uri, i) ← readUri1 began i
  if i.rest.head? ≠ some '>' then throw (.reading began i.mark "did not find the expected '>'")
  return (.tag "" uri, i.skip 1)

/-- Reads a tag with a handle: a name between exclamation marks, or a single one. The mark alone is a tag as well. -/
def readHandleTag (began : Mark) (i : Input) : Except SyntaxError (TokenKind × Input) := do
  let (name, j) ← (i.skip 1).span isNameChar
  if j.rest.head? = some '!' then
    let (rest, k) ← readUri1 began (j.skip 1)
    return (.tag (String.ofList ('!' :: name ++ ['!'])) rest, k)
  else
    let (uri, k) ← readUri began j.rest j.place .none []
    let rest := name ++ uri
    return (if rest.isEmpty then TokenKind.tag "" "!" else .tag "!" (String.ofList rest), k)

/-- Reads a tag, which a blank has to follow. -/
def readTag (began : Mark) (i : Input) : Except SyntaxError (TokenKind × Input) := do
  let i ← i.need 2
  let verbatim := (i.rest.drop 1).head? = some '<'
  let (kind, i) ← if verbatim then readVerbatimTag began (i.skip 2) else readHandleTag began i
  let i ← i.need 1
  if !endsWord i.rest then throw (.reading began i.mark "did not find expected whitespace or line break")
  return (kind, i)

/-! ## Directives -/

def readVersionNumber (began : Mark) (i : Input) : Except SyntaxError (Nat × Input) := do
  let (digits, j) ← i.span Char.isDigit
  if digits.isEmpty then throw (.reading began i.mark "did not find expected version number")
  if 2 < digits.length then throw (.reading began i.mark "found extremely long version number")
  return (digits.foldl (fun n c => 10 * n + (c.toNat - '0'.toNat)) 0, j)

def readVersion (began : Mark) (i : Input) : Except SyntaxError (TokenKind × Input) := do
  let (major, i) ← readVersionNumber began (← i.dropWhile isBlank)
  if i.rest.head? ≠ some '.' then throw (.reading began i.mark "did not find expected digit or '.' character")
  let (minor, i) ← readVersionNumber began (i.skip 1)
  return (.version major minor, i)

def readTagDirective (began : Mark) (i : Input) : Except SyntaxError (TokenKind × Input) := do
  let i ← i.dropWhile isBlank
  if i.rest.head? ≠ some '!' then throw (.reading began i.mark "did not find expected '!'")
  let (name, i) ← (i.skip 1).span isNameChar
  let doubled := i.rest.head? = some '!'
  if !doubled && !name.isEmpty then throw (.reading began i.mark "did not find expected '!'")
  let i ← (if doubled then i.skip 1 else i).need 1
  if !(i.rest.head?.any isBlank) then throw (.reading began i.mark "did not find expected whitespace")
  let (lead, i) ← readUri1 began (← i.dropWhile isBlank)
  if !endsWord i.rest then throw (.reading began i.mark "did not find expected whitespace or line break")
  return (.tagDirective (String.ofList ('!' :: name ++ if doubled then ['!'] else [])) lead, i)

def readDirective (i : Input) : Except SyntaxError (TokenKind × Input) := do
  let began := i.mark
  let (name, i) ← (i.skip 1).span isNameChar
  if name.isEmpty then throw (.reading began i.mark "could not find expected directive name")
  if !endsWord i.rest then throw (.reading began i.mark "found unexpected non-alphabetical character")
  let (kind, i) ←
    if name = "YAML".toList then readVersion began i
    else if name = "TAG".toList then readTagDirective began i
    else throw (.reading began i.mark "found unknown directive name")
  let i ← i.dropWhile isBlank
  let i ← if i.rest.head? = some '#' then i.dropWhile (!isBreak ·) else pure i
  if i.rest.head?.any (!isBreak ·) then throw (.reading began i.mark "did not find expected comment or line break")
  return (kind, ← i.dropBreak)

end NilFlow.Yaml
