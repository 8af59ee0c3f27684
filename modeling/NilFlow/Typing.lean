import NilFlow.Variable

/-!
# Types and objects

The result of type checking a program, as two tables whose entries refer to each other by number.

* `TypeForm`, `TypeEntry`: what a type is made of, and its identity class.
* `ObjectForm`, `Object`: what a name stands for.
* `Typing`: the tables, the names of package scopes and the facts about implementation.
* `Typing.variableOf?`: the variable an object stands for; instantiated variables stand for their generic declaration.
* `Typing.nilable`, `Typing.isInterface`, `Typing.isError`: the questions the analysis asks of a type.
-/

namespace NilFlow

/-- The number of a type in its table. -/
abbrev TypeId := Nat

/-- The number of an object in its table. -/
abbrev ObjectId := Nat

structure Signature where
  receiver : Option ObjectId
  params : List ObjectId
  results : List ObjectId
  variadic : Bool
deriving DecidableEq, Repr, Inhabited

/-- What a type is made of. -/
inductive TypeForm where
  | basic (name : String)
  | pointer (elem : TypeId)
  | slice (elem : TypeId)
  | array (elem : TypeId)
  | chan (elem : TypeId)
  | map (key elem : TypeId)
  | struct (fields : List ObjectId)
  | tuple (vars : List ObjectId)
  | signature (sig : Signature)
  | interface (methods : List ObjectId) (embedded : List TypeId)
  /-- A declared type; `generic` when it has type parameters. -/
  | named (obj : ObjectId) (underlying : TypeId) (generic : Bool)
  /-- Another name of the type `actual`. -/
  | aliased (obj : ObjectId) (actual underlying : TypeId)
  | typeParam (obj : ObjectId) (constraint : TypeId)
  | union
deriving DecidableEq, Repr

instance : Inhabited TypeForm := ⟨.basic "invalid type"⟩

/-- A type with the number of its identity class, when that is not its own number. -/
structure TypeEntry where
  form : TypeForm
  identity : Option TypeId
deriving DecidableEq, Repr, Inhabited

/-- What a name stands for. -/
inductive ObjectForm where
  /-- A variable; `origin` is its generic declaration when it belongs to an instance. -/
  | var (type : TypeId) (kind : ElementKind) (origin : Option ObjectId) (path : Option String)
  /-- A function with the type of its signature. -/
  | func (type : TypeId) (origin : Option ObjectId)
  | typeName (type : TypeId)
  | const (type : TypeId)
  | nil
  | builtin
  | packageName
  | label
deriving DecidableEq, Repr

/-- A named entity, with its declaration position and its package. -/
structure Object where
  name : String
  pos : Pos
  package : Option PackageRef
  form : ObjectForm
deriving DecidableEq, Repr

/-- What a package scope knows: a name, or a member of a type's name. -/
structure ScopeRow where
  package : Nat
  name : String
  member : String
  object : ObjectId
deriving DecidableEq, Repr

/-- Whether a type, or the pointers to it, implement an interface. -/
structure ImplRow where
  type : TypeId
  interface : TypeId
  byValue : Bool
  byPointer : Bool
deriving DecidableEq, Repr

/-- The types, objects and type facts of a program. -/
structure Typing where
  types : Array TypeEntry
  objects : Array Object
  scope : List ScopeRow
  impls : List ImplRow
deriving Repr, Inhabited

namespace Typing

/-! ## Types -/

/-- What a type is made of; a number outside the table is the invalid type. -/
def form (T : Typing) (t : TypeId) : TypeForm := (T.types[t]?).elim default (·.form)

/-- The type behind the names of a type. -/
def underlying (T : Typing) (t : TypeId) : TypeId :=
  match T.form t with
  | .named _ u _ | .aliased _ _ u | .typeParam _ u => u
  | _ => t

def under (T : Typing) (t : TypeId) : TypeForm := T.form (T.underlying t)

def unalias (T : Typing) (t : TypeId) : TypeId :=
  match T.form t with
  | .aliased _ a _ => a
  | _ => t

/-- The identity class of a type: identical types share it. -/
def identityClass (T : Typing) (t : TypeId) : TypeId := ((T.types[t]?).bind (·.identity)).getD t

def identical (T : Typing) (s t : TypeId) : Bool := T.identityClass s = T.identityClass t

/-- Whether the underlying type is an interface, which holds of type parameters too. -/
def isInterface (T : Typing) (t : TypeId) : Bool :=
  match T.under t with
  | .interface _ _ => true
  | _ => false

/-- Whether the type is a type parameter, possibly by another name. -/
def isTypeParam (T : Typing) (t : TypeId) : Bool :=
  match T.form (T.unalias t) with
  | .typeParam _ _ => true
  | _ => false

def nilable (T : Typing) (t : TypeId) : Bool :=
  match T.under t with
  | .pointer _ | .interface _ _ | .map _ _ | .slice _ | .chan _ | .signature _ => !T.isTypeParam t
  | .basic name => name = "Pointer" || name = "untyped nil"
  | _ => false

/-- Whether an index, dereference or iteration of the type yields values stored in it. -/
def isContainer (T : Typing) (t : TypeId) : Bool :=
  match T.under t with
  | .slice _ | .array _ | .map _ _ | .chan _ | .pointer _ => true
  | _ => false

def tuple? (T : Typing) (t : TypeId) : Option (List ObjectId) :=
  match T.form t with
  | .tuple vars => some vars
  | _ => none

/-! ## Objects -/

def object? (T : Typing) (i : ObjectId) : Option Object := T.objects[i]?

def objectForm? (T : Typing) (i : ObjectId) : Option ObjectForm := (T.object? i).map (·.form)

def nameOf (T : Typing) (i : ObjectId) : String := (T.object? i).elim "" (·.name)

def posOf (T : Typing) (i : ObjectId) : Pos := (T.object? i).elim 0 (·.pos)

def isVar (T : Typing) (i : ObjectId) : Bool :=
  match T.objectForm? i with
  | some (.var _ _ _ _) => true
  | _ => false

/-- The variable an object stands for, with no regard to instances. -/
def exactVariable? (T : Typing) (i : ObjectId) : Option Variable :=
  match T.object? i with
  | some ⟨name, pos, package, .var _ kind _ path⟩ => some ⟨i, name, pos, package, kind, path⟩
  | _ => none

/-- The generic declaration of a variable's instance; any other object is its own. -/
def originVar (T : Typing) (i : ObjectId) : ObjectId :=
  match T.objectForm? i with
  | some (.var _ _ (some o) _) => o
  | _ => i

/-- The variable an object stands for: an instantiated variable stands for its generic declaration. -/
def variableOf? (T : Typing) (i : ObjectId) : Option Variable :=
  if T.isVar i then T.exactVariable? (T.originVar i) else none

/-- All variables of a program, in the order of their objects. -/
def vars (T : Typing) : List Variable := (List.range T.objects.size).filterMap T.variableOf?

def varType? (T : Typing) (i : ObjectId) : Option TypeId :=
  match T.objectForm? i with
  | some (.var t _ _ _) => some t
  | _ => none

/-- The generic declaration of a function's instance; any other object is its own. -/
def originFunc (T : Typing) (i : ObjectId) : ObjectId :=
  match T.objectForm? i with
  | some (.func _ (some o)) => o
  | _ => i

def signatureType? (T : Typing) (i : ObjectId) : Option TypeId :=
  match T.objectForm? i with
  | some (.func t _) => some t
  | _ => none

def signature? (T : Typing) (i : ObjectId) : Option Signature :=
  match (T.signatureType? i).map T.form with
  | some (.signature s) => some s
  | _ => none

def isNil (T : Typing) (i : ObjectId) : Bool := T.objectForm? i = some .nil

/-! ## The type error -/

def isPredeclaredError (T : Typing) (t : TypeId) : Bool :=
  match T.form t with
  | .named o _ _ =>
    match T.object? o with
    | some obj => obj.name = "error" && obj.package = none && obj.pos = 0
    | none => false
  | _ => false

/-- Whether a type is identical to the predeclared type error. -/
def isError (T : Typing) (t : TypeId) : Bool :=
  (List.range T.types.size).any fun e => T.isPredeclaredError e && T.identical t e

/-! ## Lookup in scopes -/

def lookup? (T : Typing) (package : Nat) (name : String) : Option ObjectId :=
  (T.scope.find? fun r => r.package = package && r.name = name && r.member.isEmpty).map (·.object)

/-- The variable that is a member of a package-level type. -/
def lookupMember? (T : Typing) (package : Nat) (name member : String) : Option ObjectId :=
  (T.scope.find? fun r => r.package = package && r.name = name && r.member = member).map (·.object)

/-- Whether a type, or the pointers to it, implement an interface. -/
def implements (T : Typing) (t interface : TypeId) : Bool :=
  T.impls.any fun r => r.type = t && r.interface = interface && (r.byValue || r.byPointer)

/-! ## Variables are in the table -/

theorem variableOf?_mem {T : Typing} {i : ObjectId} {v : Variable} (h : T.variableOf? i = some v) : v ∈ T.vars := by
  have hi : i < T.objects.size := by
    rcases Nat.lt_or_ge i T.objects.size with hlt | hge
    · exact hlt
    · simp [variableOf?, isVar, objectForm?, object?, Array.getElem?_eq_none hge] at h
  exact List.mem_filterMap.2 ⟨i, List.mem_range.2 hi, h⟩

end Typing

end NilFlow
