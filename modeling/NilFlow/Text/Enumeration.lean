/-!
# Numbered names

* `Enumeration`: the names of a family whose members are numbered from zero.
* `Enumeration.name`: the name of a number; a number past the last name is written as `Label(number)`.
-/

namespace NilFlow

/-- The names of the numbers `0, 1, …`, and the label that writes any further number. -/
structure Enumeration where
  label : String
  names : List String

namespace Enumeration

def name (e : Enumeration) (n : Nat) : String :=
  match e.names[n]? with
  | some s => s
  | none => e.label ++ "(" ++ n.repr ++ ")"

/-- The number of the first name equal to `s`. -/
def number? (e : Enumeration) (s : String) : Option Nat :=
  e.names.findIdx? (· = s)

end Enumeration

end NilFlow
