import NilFlow.Flow.Dependents
import NilFlow.Proofs.Program.Consistency

/-!
# Well-typed programs

* `Typing.boxed`: whether a place of some type holds interface values.
* `Typing.InstanceFits`, `Program.SignatureFits`: instances stand for their declarations, and signatures own their
  variables.
* `TypesFit`: names, keys and tuples have the types that their places ask for.
* `Program.Resolved`: names refer to what their places ask for, throughout a program.
* `Program.WellTyped`: all this holds throughout a consistent program; both can be decided.
-/

namespace NilFlow

namespace Typing

/-- Whether a place of a type, when it is known, holds interface values. -/
def boxed (T : Typing) (t : Option TypeId) : Bool := t.any T.isInterface

/-- A variable holds interface values as its generic declaration does, except for a type parameter. -/
@[mk_iff]
structure InstanceFits (T : Typing) (o : ObjectId) : Prop where
  generic : T.boxed (T.varType? o) = true → T.boxed (T.varType? (T.originVar o)) = true
  instance_ : ∀ t ∈ T.varType? (T.originVar o), T.isTypeParam t = false → T.isInterface t = true →
    T.boxed (T.varType? o) = true

instance decidableInstanceFits (T : Typing) (o : ObjectId) : Decidable (T.InstanceFits o) :=
  decidable_of_iff _ (instanceFits_iff T o).symm

/-- Whether an expression is no call of a function, so that it has a single value, perhaps with a test. -/
def single (T : Typing) (e : Node) : Bool :=
  e.kind ≠ .callExpr || match calleeOf T e with
    | .builtin _ => true
    | _ => false

end Typing

/-- The variables of a declared signature are its own. -/
@[mk_iff]
structure Program.SignatureFits (p : Program) (f : ObjectId) : Prop where
  /-- They are no instances. -/
  own : ∀ sig ∈ p.typing.signature? (p.typing.originFunc f), ∀ o ∈ sig.params ++ sig.results,
    p.typing.originVar o = o
  /-- A parameter has no other owner. -/
  owner : ∀ sig ∈ p.typing.signature? (p.typing.originFunc f), ∀ q ∈ sig.params.zipIdx,
    ∀ v ∈ p.typing.variableOf? q.1, v.kind = .parameter ∧
      ∀ owner ∈ p.owner? v, owner = ⟨p.typing.originFunc f, some q.2⟩

instance decidableSignatureFits (p : Program) (f : ObjectId) : Decidable (p.SignatureFits f) :=
  decidable_of_iff _ (p.signatureFits_iff f).symm

/-- Names refer to what their places ask for. -/
@[mk_iff]
structure ObjectsFit (T : Typing) (c : Cursor) : Prop where
  /-- A selector that selects a field names it. -/
  selected : c.node.kind = .selectorExpr → ∀ s ∈ c.node.facts.selection, s.kind = .field →
    ∃ n ∈ c.node.childrenAt .sel, n.object? = some s.object
  /-- A name that uses a function declares nothing. -/
  function : ∀ f ∈ c.node.facts.uses, (T.signatureType? f).isSome = true → c.node.facts.declares = none
  /-- The key of a struct literal has the type of its field. -/
  key : contextOf T c = .fieldKey → c.node.kind = .ident ∧
    ∀ o ∈ c.node.object?, T.boxed (T.varType? o) = T.boxed c.node.facts.type

/-- What receives values has the types that it is declared with. -/
@[mk_iff]
structure TypesFit (T : Typing) (c : Cursor) : Prop where
  /-- The names of a declaration declare variables, which hold interface values together under a declared type. -/
  declared : c.node.kind = .valueSpec → ∀ n ∈ c.node.childrenAt .names, n.kind = .ident ∧
    (n.facts.name ≠ "_" → n.object? = n.facts.declares ∧ ((c.node.child? .typeExpr).isSome = true →
      ∀ o ∈ definedVars T (c.node.childrenAt .names) none, T.boxed (T.varType? o) = T.boxed n.facts.type))
  /-- A function that a statement returns from is declared, and no instance. -/
  returned : c.node.kind = .returnStmt → ∀ fn ∈ c.enclosing?, ∀ n ∈ fn.child? .name, ∀ o ∈ n.facts.declares,
    T.originFunc o = o
  /-- The test that comes with a value is never nil. -/
  test : T.single c.node.unparen = true → ∀ vars ∈ T.tupleOf? c.node, ∀ o ∈ vars.drop 1, ∀ t ∈ T.varType? o,
    T.nilable t = false

instance decidableObjectsFit (T : Typing) (c : Cursor) : Decidable (ObjectsFit T c) :=
  decidable_of_iff _ (objectsFit_iff T c).symm

instance decidableTypesFit (T : Typing) (c : Cursor) : Decidable (TypesFit T c) :=
  decidable_of_iff _ (typesFit_iff T c).symm

/-- Names and selectors are resolved throughout a program. -/
structure Program.Resolved (p : Program) : Prop where
  names : ∀ c, p.Holds c → NamesFit p.typing c
  objects : ∀ c, p.Holds c → ObjectsFit p.typing c

/-- The types of a program fit its syntax. -/
structure Program.WellTyped (p : Program) : Prop extends p.Consistent where
  instances : ∀ o, p.typing.InstanceFits o
  owners : ∀ f, p.SignatureFits f
  objects : ∀ c, p.Holds c → ObjectsFit p.typing c
  types : ∀ c, p.Holds c → TypesFit p.typing c

/-! ## Well-typedness can be decided -/

namespace Typing

variable {T : Typing} {o f : ObjectId}

theorem varType?_eq_none_of_le (h : T.objects.size ≤ o) : T.varType? o = none := by
  simp [varType?, objectForm?, object?, Array.getElem?_eq_none h]

theorem originFunc_eq_of_le (h : T.objects.size ≤ f) : T.originFunc f = f := by
  simp [originFunc, objectForm?, object?, Array.getElem?_eq_none h]

theorem originVar_eq_of_le (h : T.objects.size ≤ o) : T.originVar o = o := by
  simp [originVar, objectForm?, object?, Array.getElem?_eq_none h]

theorem signature?_eq_none_of_le (h : T.objects.size ≤ f) : T.signature? f = none := by
  simp [signature?, signatureType?, objectForm?, object?, Array.getElem?_eq_none h]

theorem instanceFits_of_le (h : T.objects.size ≤ o) : T.InstanceFits o where
  generic := by
    rw [originVar_eq_of_le h]
    exact id
  instance_ := by
    rw [originVar_eq_of_le h, varType?_eq_none_of_le h]
    rintro t ⟨⟩

end Typing

namespace Program

variable {p : Program}

theorem signatureFits_of_le {f : ObjectId} (h : p.typing.objects.size ≤ f) : p.SignatureFits f where
  own := by
    rw [Typing.originFunc_eq_of_le h, Typing.signature?_eq_none_of_le h]
    rintro sig ⟨⟩
  owner := by
    rw [Typing.originFunc_eq_of_le h, Typing.signature?_eq_none_of_le h]
    rintro sig ⟨⟩

theorem WellTyped.resolved (h : p.WellTyped) : p.Resolved := ⟨h.names, h.objects⟩

theorem resolved_iff (p : Program) : p.Resolved ↔
    ∀ package ∈ p.packages, ∀ c ∈ package.cursors, NamesFit p.typing c ∧ ObjectsFit p.typing c := by
  constructor
  · intro h package hpackage c hc
    exact ⟨h.names c ⟨package, hpackage, hc⟩, h.objects c ⟨package, hpackage, hc⟩⟩
  · intro h
    exact ⟨fun c ⟨package, hpackage, hc⟩ => (h package hpackage c hc).1,
      fun c ⟨package, hpackage, hc⟩ => (h package hpackage c hc).2⟩

instance decidableResolved (p : Program) : Decidable p.Resolved := decidable_of_iff _ p.resolved_iff.symm

/-- Only the objects in the table and the nodes of the packages matter. -/
theorem wellTyped_iff (p : Program) : p.WellTyped ↔ p.Consistent ∧
    (∀ o < p.typing.objects.size, p.typing.InstanceFits o) ∧ (∀ f < p.typing.objects.size, p.SignatureFits f) ∧
    ∀ package ∈ p.packages, ∀ c ∈ package.cursors, ObjectsFit p.typing c ∧ TypesFit p.typing c := by
  constructor
  · intro h
    refine ⟨h.toConsistent, fun o _ => h.instances o, fun f _ => h.owners f, fun package hpackage c hc => ?_⟩
    exact ⟨h.objects c ⟨package, hpackage, hc⟩, h.types c ⟨package, hpackage, hc⟩⟩
  · rintro ⟨hconsistent, hinstances, howners, hfit⟩
    refine ⟨hconsistent, fun o => ?_, fun f => ?_, fun c ⟨package, hpackage, hc⟩ => (hfit package hpackage c hc).1,
      fun c ⟨package, hpackage, hc⟩ => (hfit package hpackage c hc).2⟩
    · by_cases h : o < p.typing.objects.size
      · exact hinstances o h
      · exact Typing.instanceFits_of_le (Nat.le_of_not_lt h)
    · by_cases h : f < p.typing.objects.size
      · exact howners f h
      · exact signatureFits_of_le (Nat.le_of_not_lt h)

instance decidableWellTyped (p : Program) : Decidable p.WellTyped := decidable_of_iff _ p.wellTyped_iff.symm

end Program

end NilFlow
