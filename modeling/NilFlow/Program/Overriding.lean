import NilFlow.Closure
import NilFlow.Program.Basic
import NilFlow.Severity
import NilFlow.Sorting

/-!
# Overriding methods

Which declarations share the parameters of a called method.

* `Typing.interfaceOf?`: the interface that declares a method.
* `Typing.related`: one method is an interface method that the receiver of the other implements.
* `Program.declarations`: the declarations sharing a function's parameters under a policy, by position.
-/

namespace NilFlow

namespace Typing

def receiverType? (T : Typing) (fn : ObjectId) : Option TypeId :=
  ((T.signature? fn).bind (·.receiver)).bind T.varType?

/-- The interface type that declares a method, when it is an interface method. -/
def interfaceOf? (T : Typing) (fn : ObjectId) : Option TypeId :=
  match (T.receiverType? fn).map T.underlying with
  | none => none
  | some u =>
    match T.form u with
    | .interface _ _ => some u
    | _ => none

/-- Whether the receiver of a concrete method implements an interface. Generic receivers implement none. -/
def receiverImplements (T : Typing) (fn : ObjectId) (interface : TypeId) : Bool :=
  match T.receiverType? fn with
  | none => false
  | some t =>
    let t := match T.form t with
      | .pointer e => e
      | _ => t
    match T.form (T.unalias t) with
    | .named _ _ true => false
    | _ => T.implements t interface

/-- Whether one of two methods is an interface method that the receiver of the other implements. -/
def related (T : Typing) (a b : ObjectId) : Bool :=
  match T.interfaceOf? a, T.interfaceOf? b with
  | some i, none => T.receiverImplements b i
  | none, some i => T.receiverImplements a i
  | _, _ => false

def sameSignature (T : Typing) (a b : ObjectId) : Bool :=
  match T.signatureType? a, T.signatureType? b with
  | some s, some t => T.identical s t
  | _, _ => false

end Typing

namespace Program

/-- The methods sharing a method's parameters under a policy, in the order they are found. -/
def sharing (p : Program) (policy : OverridePolicy) (fn : ObjectId) : List ObjectId :=
  let methods := p.index.methods p.typing (p.typing.nameOf fn)
  match policy with
  | .exact => [fn]
  | .signature => fn :: methods.filter fun m => m ≠ fn && p.typing.sameSignature m fn
  | .implements => closure methods.eraseDups p.typing.related [fn]

/-- The declarations sharing the parameters of a function under a policy, by position. A function without receiver
stands alone, and an instance stands for its generic declaration. -/
def declarations (p : Program) (policy : OverridePolicy) (fn : ObjectId) : List ObjectId :=
  let fn := p.typing.originFunc fn
  match (p.typing.signature? fn).bind (·.receiver) with
  | none => [fn]
  | some _ => sortedBy (fun a b => p.typing.posOf a ≤ p.typing.posOf b) (p.sharing policy fn)

end Program

end NilFlow
