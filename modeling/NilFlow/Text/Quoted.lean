import NilFlow.Text.CharClass

/-!
# Double-quoted text

How a text is shown between double quotes in messages and log lines: quotes and backslashes are escaped, graphic
characters and the blank stand for themselves, everything else is an escape.

* `printable`: the characters that stand for themselves.
* `hexDigits`: a number in lower-case hexadecimal, padded to a width.
* `quoted`: the quoted form of a text.
-/

namespace NilFlow

/-- The characters shown as they stand: graphic characters and the ASCII blank. -/
def printable (c : Char) : Bool := c = ' ' || CharClass.graphic.mem c

/-- The lower-case hexadecimal digits of `n`, at least `width` of them. -/
def hexDigits (width n : Nat) : List Char :=
  let ds := Nat.toDigits 16 n
  List.replicate (width - ds.length) '0' ++ ds

/-- The short escape letter of a control character, when it has one. -/
def escapeLetter? (c : Char) : Option Char :=
  match c.toNat with
  | 7 => some 'a'
  | 8 => some 'b'
  | 9 => some 't'
  | 10 => some 'n'
  | 11 => some 'v'
  | 12 => some 'f'
  | 13 => some 'r'
  | _ => none

def quotedChar (c : Char) : List Char :=
  if c = '"' || c = '\\' then ['\\', c]
  else if printable c then [c]
  else match escapeLetter? c with
    | some e => ['\\', e]
    | none =>
      if c.toNat < 0x20 || c.toNat = 0x7f then '\\' :: 'x' :: hexDigits 2 c.toNat
      else if c.toNat < 0x10000 then '\\' :: 'u' :: hexDigits 4 c.toNat
      else '\\' :: 'U' :: hexDigits 8 c.toNat

def quoted (s : String) : String :=
  String.ofList ('"' :: s.toList.flatMap quotedChar ++ ['"'])

end NilFlow
