/-!
# Characters from bytes

* `utf8Start?`: the character that some bytes start with, and how many more bytes it takes.
* `decodeUtf8`: the characters of some bytes; a byte that starts none stands for the replacement character.
-/

namespace NilFlow

/-- How many bytes follow the first byte of a character beyond ASCII, and the least number written so. -/
def utf8Trail? (lead : Nat) : Option (Nat × Nat) :=
  if 0xc0 ≤ lead && lead < 0xe0 then some (1, 0x80)
  else if 0xe0 ≤ lead && lead < 0xf0 then some (2, 0x800)
  else if 0xf0 ≤ lead && lead < 0xf8 then some (3, 0x10000)
  else none

/-- The character that some bytes start with, and the number of bytes it takes after the first. Only the shortest form
of a character counts. -/
def utf8Start? : List Nat → Option (Char × Nat)
  | [] => none
  | lead :: rest =>
    if lead < 0x80 then some (Char.ofNat lead, 0)
    else match utf8Trail? lead with
      | none => none
      | some (trail, least) =>
        let bytes := rest.take trail
        let number := bytes.foldl (fun n b => 64 * n + (b - 0x80)) (lead % (1 <<< (6 - trail)))
        if bytes.length = trail && bytes.all (fun b => 0x80 ≤ b && b < 0xc0) && least ≤ number && number.isValidChar
        then some (Char.ofNat number, trail)
        else none

/-- The characters of some bytes. A byte that starts no character is read as the replacement character. -/
def decodeUtf8 : List Nat → List Char
  | [] => []
  | lead :: rest =>
    match utf8Start? (lead :: rest) with
    | some (c, trail) => c :: decodeUtf8 (rest.drop trail)
    | none => '\ufffd' :: decodeUtf8 rest
termination_by bytes => bytes.length
decreasing_by all_goals simp; try omega

end NilFlow
