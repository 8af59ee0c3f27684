import NilFlow.Program.Basic

/-!
# Descriptions

How a report speaks of elements.

* `Program.functionName`: a function with the name of its receiver type.
* `Program.describe`: an element with its kind and function, like `parameter 'p' of T.f`.
* `enumerate`: names joined as in a sentence.
-/

namespace NilFlow

namespace Program

/-- The name of a function; a method follows the name of its receiver type. -/
def functionName (p : Program) (f : ObjectId) : String :=
  let T := p.typing
  let receiver := (T.signature? f).bind (·.receiver)
  match (receiver.bind T.varType?).map fun t => (match T.form t with | .pointer e => e | _ => t) with
  | none => T.nameOf f
  | some t =>
    match T.form (T.unalias t) with
    | .named o _ _ => T.nameOf o ++ "." ++ T.nameOf f
    | _ => T.nameOf f

/-- What an element is called by its place: an unnamed result goes by its number, the parameter before the first is the
receiver. -/
def roleName (v : Variable) (owner : Option Owner) : String :=
  if v.kind = .parameter && owner.any (·.place.isNone) then "receiver"
  else if v.kind = .result && v.name.isEmpty then
    "result " ++ ((owner.bind (·.place)).getD 0).repr
  else v.kind.name

/-- The description of an element. Only parameters and results belong to a function. -/
def describe (p : Program) (v : Variable) : String :=
  let owner := if v.kind = .parameter || v.kind = .result then p.owner? v else none
  let name := if v.name.isEmpty then "" else " '" ++ v.name ++ "'"
  roleName v owner ++ name ++ owner.elim "" fun o => " of " ++ p.functionName o.func

end Program

/-- Names joined by commas, with a word before the last. -/
def enumerate : List String → String
  | [] => ""
  | [a] => a
  | [a, b] => a ++ " and " ++ b
  | a :: rest => a ++ ", " ++ enumerate rest

end NilFlow
