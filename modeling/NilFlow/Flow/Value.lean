import NilFlow.Flow.Context
import NilFlow.Program.Overriding
import NilFlow.Settings.Basic

/-!
# Values and where they are held

* `ValueType`, `valueType?`: the type of an expression's value, one component of a tuple if need be.
* `boxes`: whether a store wraps a value into an interface.
* `Callee`, `calleeOf`: what a call calls.
* `resolve`: the variable that an assignable expression stores into.
* `producer`: the variable that holds the value of an expression.
* `parameterAt?`: the parameter that receives an argument, and the type it is assigned to.
-/

namespace NilFlow

/-! ## Types of values -/

/-- The type of a value: the untyped nil, or a type of the table. -/
inductive ValueType where
  | untypedNil
  | typed (t : TypeId)
deriving DecidableEq, Repr

/-- Whether an expression is the predeclared nil, possibly in parentheses. -/
def isNilLiteral (T : Typing) (e : Node) : Bool :=
  let n := e.unparen
  n.kind = .ident && n.facts.uses.any T.isNil

/-- The type of an expression's value. The slot selects a component of a tuple, the first one by default. -/
def valueType? (T : Typing) (e : Node) (slot : Option Nat) : Option ValueType :=
  if isNilLiteral T e then some .untypedNil
  else match e.facts.type with
    | none => none
    | some t =>
      match T.tuple? t with
      | some vars => ((vars[slot.getD 0]?).bind T.varType?).map .typed
      | none => some (.typed t)

/-- Whether storing a value of type `src` into a place of type `dst` wraps it into an interface. An unknown type never
does. -/
def boxes (T : Typing) (src : Option ValueType) (dst : Option TypeId) : Bool :=
  match src, dst with
  | some (.typed s), some d => T.isInterface d && T.form s ≠ .basic "untyped nil" && !T.isInterface s
  | _, _ => false

/-! ## Callees -/

/-- What a call calls: a builtin function, a declared function, or anything else. -/
inductive Callee where
  | builtin (name : String)
  | func (f : ObjectId)
  | other
deriving DecidableEq, Repr

/-- The identifier that names a call's function, through an instantiation and parentheses. -/
def calleeIdent? (call : Node) : Option Node :=
  match (call.child? .callee).map Node.unparen with
  | none => none
  | some f =>
    let instantiated : Option Node :=
      match f.kind with
      | .indexExpr => if (f.child? .index).any (·.facts.isType) then f.child? .x else some f
      | .indexListExpr => f.child? .x
      | _ => some f
    match instantiated.map Node.unparen with
    | none => none
    | some g =>
      match g.kind with
      | .ident => some g
      | .selectorExpr => g.child? .sel
      | _ => none

def calleeOf (T : Typing) (call : Node) : Callee :=
  match (calleeIdent? call).bind (·.facts.uses) with
  | none => .other
  | some o =>
    match T.objectForm? o with
    | some .builtin => .builtin (T.nameOf o)
    | some (.func _ _) => .func o
    | _ => .other

/-! ## Stored into -/

def kindText (n : Node) : String := "*ast." ++ n.kind.name

def qualified (T : Typing) (e : Node) : Bool :=
  (e.child? .x).any fun x => x.kind = .ident && x.facts.uses.any fun o => T.objectForm? o = some .packageName

/-- The variable that an identifier names as the target of a store. The blank identifier stores into nothing. -/
def resolveIdent (T : Typing) (e : Node) : Except Failure (Option ObjectId) :=
  if e.facts.name = "_" then .ok none
  else match e.object? with
    | none => .error ⟨.missingBinding, none, e.span, e.facts.name⟩
    | some o =>
      if T.isVar o then .ok (some o)
      else .error ⟨.unclassifiable, none, e.span, e.facts.name ++ " is not a variable"⟩

def selectedName (e : Node) : String := (e.child? .sel).elim "" (·.facts.name)

/-- The variable that a resolved selector selects as the target of a store: only fields can be stored into. -/
def resolveSelection (T : Typing) (e : Node) (s : Selection) : Except Failure (Option ObjectId) :=
  if s.kind = .field && T.isVar s.object then .ok (some s.object)
  else .error ⟨.unclassifiable, none, e.span, selectedName e ++ " is not a field"⟩

mutual

/-- The variable that an assignable expression stores into, or nothing for the blank identifier. -/
def resolve (T : Typing) : Node → Except Failure (Option ObjectId)
  | .mk l cs =>
    let e := Node.mk l cs
    match l.kind with
    | .ident => resolveIdent T e
    | .selectorExpr =>
      match l.facts.selection with
      | some s => resolveSelection T e s
      | none =>
        if qualified T e then resolveIn T .sel cs
        else .error ⟨.modelError, none, l.span, "missing selection " ++ selectedName e⟩
    | .indexExpr | .starExpr | .parenExpr => resolveIn T .x cs
    | _ => .error ⟨.unclassifiable, none, l.span, "assignment to " ++ kindText e⟩

/-- The variable that the child in a field stores into. -/
def resolveIn (T : Typing) (f : FieldName) : List Node → Except Failure (Option ObjectId)
  | [] => .ok none
  | c :: cs => if c.field = some f then resolve T c else resolveIn T f cs

end

/-! ## Held by -/

def producerIdent (T : Typing) (e : Node) : Except Failure (Option ObjectId) :=
  match e.object? with
  | none => .error ⟨.missingBinding, none, e.span, e.facts.name⟩
  | some o => .ok (if T.isVar o then some o else none)

def conversionFailure (call : Node) : Failure := ⟨.disallowed, none, call.span, "conversion to " ++ call.facts.text⟩

def functionValueFailure (call : Node) : Failure := ⟨.unclassifiable, none, call.span, "call of a function value"⟩

/-- The result of a declared function that a call produces. -/
def producedResult (T : Typing) (call : Node) (fn : ObjectId) (slot : Option Nat) : Except Failure (Option ObjectId) :=
  match ((T.signature? (T.originFunc fn)).elim [] (·.results))[slot.getD 0]? with
  | some r => .ok (some r)
  | none => .error ⟨.modelError, none, call.span, "result arity of " ++ T.nameOf fn⟩

mutual

/-- The variable that holds the value of an expression, if any does. The slot selects a result of a call. -/
def producer (T : Typing) : Node → Option Nat → Except Failure (Option ObjectId)
  | .mk l cs, slot =>
    let e := Node.mk l cs
    match l.kind with
    | .parenExpr => producerIn T .x cs slot
    | .ident => producerIdent T e
    | .selectorExpr =>
      match l.facts.selection with
      | some s => .ok (if s.kind = .field && T.isVar s.object then some s.object else none)
      | none => producerIn T .sel cs slot
    | .callExpr =>
      if isConversion e then
        if (e.childType? .callee).any T.isInterface then .ok none else .error (conversionFailure e)
      else match calleeOf T e with
        | .builtin name => if name = "append" then producerIn T .args cs none else .ok none
        | .func fn => producedResult T e fn slot
        | .other => .error (functionValueFailure e)
    | .indexExpr => if (e.childType? .x).any T.isContainer then producerIn T .x cs none else .ok none
    | .sliceExpr | .starExpr => producerIn T .x cs none
    | .unaryExpr => if l.facts.operator = "<-" then producerIn T .x cs none else .ok none
    | _ => .ok none

/-- The variable that holds the value of the first child in a field. -/
def producerIn (T : Typing) (f : FieldName) : List Node → Option Nat → Except Failure (Option ObjectId)
  | [], _ => .ok none
  | c :: cs, slot => if c.field = some f then producer T c slot else producerIn T f cs slot

end

/-! ## Passed to -/

/-- The parameter that receives the argument at a place, where no number means the receiver, and the type that a single
argument is assigned to: an element of the variadic parameter, unless its last argument is spread. -/
def parameterAt? (T : Typing) (sig : Signature) (place : Option Nat) (ellipsis : Bool) : Option (ObjectId × TypeId) :=
  match place with
  | none => sig.receiver.bind fun r => (T.varType? r).map (r, ·)
  | some j =>
    if sig.variadic && sig.params.length ≤ j + 1 then
      sig.params.getLast?.bind fun p => (T.varType? p).bind fun t =>
        if ellipsis then some (p, t)
        else match T.under t with
          | .slice e => some (p, e)
          | _ => none
    else sig.params[j]?.bind fun p => (T.varType? p).map (p, ·)

end NilFlow
