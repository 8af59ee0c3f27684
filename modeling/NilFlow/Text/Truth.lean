import NilFlow.Text.Quoted

/-!
# Truth values as words

* `boolText`: how a truth value is written.
* `truthOfWord?`: the words that options accept for a truth value.
* `truthError`: what is said about any other word.
-/

namespace NilFlow

def boolText (b : Bool) : String := if b then "true" else "false"

def truthOfWord? (w : String) : Option Bool :=
  if ["1", "t", "T", "true", "TRUE", "True"].contains w then some true
  else if ["0", "f", "F", "false", "FALSE", "False"].contains w then some false
  else none

def truthError (w : String) : String := "strconv.ParseBool: parsing " ++ quoted w ++ ": invalid syntax"

@[simp] theorem truthOfWord?_boolText (b : Bool) : truthOfWord? (boolText b) = some b := by cases b <;> decide

end NilFlow
