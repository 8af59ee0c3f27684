import NilFlow.Text.Quoted

/-!
# JSON

* `JsonValue`: a JSON value whose numbers are whole and whose fields keep their order.
* `JsonValue.text`: the indented text of a value. Characters with a meaning in HTML are escaped, so that the text can be
  embedded in a page.
-/

namespace NilFlow

inductive JsonValue where
  | null
  | bool (b : Bool)
  | num (n : Int)
  | str (s : String)
  | arr (items : List JsonValue)
  | obj (fields : List (String × JsonValue))
deriving Inhabited

namespace JsonValue

/-! ## Strings -/

/-- The short escape letter of a character, when it has one. -/
def escapeLetter? : Char → Option Char
  | '"' => some '"'
  | '\\' => some '\\'
  | '\n' => some 'n'
  | '\r' => some 'r'
  | '\t' => some 't'
  | '\x08' => some 'b'
  | '\x0c' => some 'f'
  | _ => none

/-- The characters written as a number: controls, those with a meaning in HTML, and the two line separators. -/
def numbered (c : Char) : Bool :=
  c.toNat < 0x20 || c = '<' || c = '>' || c = '&' || c = '\u2028' || c = '\u2029'

def escaped (c : Char) : List Char :=
  match escapeLetter? c with
  | some e => ['\\', e]
  | none => if numbered c then '\\' :: 'u' :: hexDigits 4 c.toNat else [c]

def stringText (s : String) : String := String.ofList ('"' :: s.toList.flatMap escaped ++ ['"'])

/-! ## Layout -/

def lineBreak (depth : Nat) : String := "\n" ++ String.ofList (List.replicate (2 * depth) ' ')

/-- Items between brackets, one a line; no item at all is the bare brackets. -/
def bracketed (opening closing : String) (depth : Nat) (items : List String) : String :=
  if items.isEmpty then opening ++ closing
  else
    opening ++ lineBreak (depth + 1) ++ ("," ++ lineBreak (depth + 1)).intercalate items ++ lineBreak depth ++ closing

mutual

def textAt (depth : Nat) : JsonValue → String
  | null => "null"
  | bool b => if b then "true" else "false"
  | num n => toString n
  | str s => stringText s
  | arr items => bracketed "[" "]" depth (itemTexts (depth + 1) items)
  | obj fields => bracketed "\x7b" "\x7d" depth (fieldTexts (depth + 1) fields)

def itemTexts (depth : Nat) : List JsonValue → List String
  | [] => []
  | v :: vs => textAt depth v :: itemTexts depth vs

def fieldTexts (depth : Nat) : List (String × JsonValue) → List String
  | [] => []
  | (k, v) :: rest => (stringText k ++ ": " ++ textAt depth v) :: fieldTexts depth rest

end

def text (v : JsonValue) : String := textAt 0 v

/-! ## Objects with optional fields -/

/-- A field that is left out when its text is empty. -/
def strField? (key s : String) : List (String × JsonValue) := if s.isEmpty then [] else [(key, str s)]

/-- A field that is left out when its list is empty. -/
def arrField? (key : String) (items : List JsonValue) : List (String × JsonValue) :=
  if items.isEmpty then [] else [(key, arr items)]

end JsonValue

end NilFlow
