import NilFlow.Text.CharClass

/-!
# Doc links

A doc link is a name in square brackets, such as `[Name]`, `[*Name]` or `[Name.Member]`.

* `DocLink`: the name, the member and the byte offsets of the brackets.
* `docLinks`: the doc links of a text, from left to right.
-/

namespace NilFlow

/-- A doc link found in a text; the offsets count bytes. -/
structure DocLink where
  start : Nat
  stop : Nat
  name : String
  member : Option String
deriving DecidableEq, Repr, Inhabited

namespace DocLink

def nameStart (c : Char) : Bool := c = '_' || CharClass.letter.mem c

def nameChar (c : Char) : Bool := c = '_' || CharClass.letter.mem c || CharClass.number.mem c

/-- The name at the beginning of a text, and the rest. -/
def name? : List Char → Option (List Char × List Char)
  | c :: t => if nameStart c then some (c :: t.takeWhile nameChar, t.dropWhile nameChar) else none
  | [] => none

def bytes (cs : List Char) : Nat := cs.foldr (·.utf8Size + ·) 0

def afterBracket? (start : Nat) (t : List Char) : Option DocLink :=
  let stars := if t.head? = some '*' then 1 else 0
  match name? (t.drop stars) with
  | none => none
  | some (name, ']' :: _) => some ⟨start, start + stars + bytes name + 2, String.ofList name, none⟩
  | some (name, '.' :: rest) =>
    match name? rest with
    | some (member, ']' :: _) =>
      some ⟨start, start + stars + bytes name + bytes member + 3, String.ofList name, some (String.ofList member)⟩
    | _ => none
  | some _ => none

end DocLink

/-- The links of a text from an offset on; up to the offset `resume` the text belongs to the link found before. -/
def docLinksFrom : (offset resume : Nat) → List Char → List DocLink
  | _, _, [] => []
  | offset, resume, c :: t =>
    if c = '[' && resume ≤ offset then
      match DocLink.afterBracket? offset t with
      | some link => link :: docLinksFrom (offset + c.utf8Size) link.stop t
      | none => docLinksFrom (offset + c.utf8Size) resume t
    else docLinksFrom (offset + c.utf8Size) resume t

/-- The links of a text, from left to right. -/
def docLinks (text : String) : List DocLink := docLinksFrom 0 0 text.toList

end NilFlow
