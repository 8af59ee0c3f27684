/-!
# Base 64

Bytes written as letters, digits and two signs, four characters for three bytes.

* `base64Value?`: the number of a character.
* `base64Decode?`: the bytes of a text, whose last group is filled up with `=`.
-/

namespace NilFlow

def base64Value? (c : Char) : Option Nat :=
  if c.isUpper then some (c.toNat - 'A'.toNat)
  else if c.isLower then some (c.toNat - 'a'.toNat + 26)
  else if c.isDigit then some (c.toNat - '0'.toNat + 52)
  else if c = '+' then some 62
  else if c = '/' then some 63
  else none

/-- The first bytes of four numbers of six bits. -/
def base64Bytes (count : Nat) (a b c d : Nat) : List Nat :=
  [4 * a + b / 16, 16 * (b % 16) + c / 4, 64 * (c % 4) + d].take count

/-- The bytes of groups of four characters. Only the last group may be filled up. -/
def base64Groups? : List Char → Option (List Nat)
  | [] => some []
  | [a, b, '=', '='] => do return base64Bytes 1 (← base64Value? a) (← base64Value? b) 0 0
  | [a, b, c, '='] => do return base64Bytes 2 (← base64Value? a) (← base64Value? b) (← base64Value? c) 0
  | a :: b :: c :: d :: rest => do
    let first := base64Bytes 3 (← base64Value? a) (← base64Value? b) (← base64Value? c) (← base64Value? d)
    return first ++ (← base64Groups? rest)
  | _ => none

/-- The bytes that a text stands for. Line ends do not count. -/
def base64Decode? (text : String) : Option (List Nat) :=
  base64Groups? (text.toList.filter fun c => c ≠ '\n' && c ≠ '\r')

end NilFlow
