import Mathlib.Tactic.MkIffOfInductiveProp
import NilFlow.Flow.Value
import NilFlow.Proofs.Closure
import NilFlow.Proofs.Program.Index

/-!
# Type information that fits the syntax

* `Typing.valueCount`, `Typing.Matches`: how many values expressions have, and how they match receivers.
* `Typing.FunctionFits`, `Typing.SignaturesFit`: functions take arguments as their signatures say.
* `NamesFit`, `ValuesFit`, `ReceiversFit`, `PlaceFits`: the facts recorded at a node fit its place in the tree.
* `Program.Consistent`: all this holds throughout a program; it can be decided.
* `Program.alike_of_mem_declarations`: an argument that fits a function fits all declarations that share its parameters.
-/

namespace NilFlow

/-! ## Values of expressions -/

def TypeForm.isSlice : TypeForm → Bool
  | .slice _ => true
  | _ => false

theorem TypeForm.isSlice_iff (t : TypeForm) : t.isSlice = true ↔ ∃ e, t = .slice e := by
  cases t <;> simp [isSlice]

namespace Typing

/-- The components of an expression's value when it is a tuple: the results of a call, or a value with its test. -/
def tupleOf? (T : Typing) (e : Node) : Option (List ObjectId) := e.facts.type.bind T.tuple?

/-- How many values an expression has. -/
def valueCount (T : Typing) (e : Node) : Nat := (T.tupleOf? e).elim 1 List.length

/-- Some values match `n` receivers: one to one, or a single tuple with a component for each. -/
def Matches (T : Typing) (n : Nat) (values : List Node) : Prop :=
  (values.length = n ∧ ∀ e ∈ values, T.tupleOf? e = none) ∨
    (values.length = 1 ∧ ∀ e ∈ values, ∃ vars ∈ T.tupleOf? e, vars.length = n)

instance decidableMatches (T : Typing) (n : Nat) (values : List Node) : Decidable (T.Matches n values) :=
  inferInstanceAs (Decidable (_ ∨ _))

/-- The declared function that a call calls. -/
def called? (T : Typing) (call : Node) : Option ObjectId :=
  match calleeOf T call with
  | .func f => some f
  | _ => none

theorem called?_of_func {T : Typing} {call : Node} {f : ObjectId} (h : calleeOf T call = .func f) :
    T.called? call = some f := by
  unfold called?
  rw [h]

/-- How many values a call passes: its arguments, or the components of the only one. -/
def passedCount (T : Typing) (call : Node) : Nat :=
  match call.childrenAt .args with
  | [arg] => T.valueCount arg
  | args => args.length

/-! ## Functions -/

/-- A function takes its arguments as its signature says. -/
@[mk_iff]
structure FunctionFits (T : Typing) (f : ObjectId) : Prop where
  /-- Receivers and parameters are variables. -/
  typed : ∀ sig ∈ T.signature? f, ∀ o ∈ sig.receiver.toList ++ sig.params, (T.varType? o).isSome = true
  /-- A variadic parameter is a slice. -/
  variadic : ∀ sig ∈ T.signature? f, sig.variadic = true → ∀ p ∈ sig.params.getLast?, ∀ t ∈ T.varType? p,
    (T.under t).isSlice = true

/-- Two functions whose signatures are the same take the same arguments. -/
@[mk_iff]
structure SignaturesFit (T : Typing) (f g : ObjectId) : Prop where
  /-- Identical signatures have the same number of parameters. -/
  identical : T.sameSignature f g = true → ∀ s ∈ T.signature? f, ∀ t ∈ T.signature? g,
    s.params.length = t.params.length ∧ s.variadic = t.variadic
  /-- Methods of one name are identical when a receiver implements the interface of the other. -/
  implements : T.nameOf f = T.nameOf g → T.related f g = true → T.sameSignature f g = true

instance decidableFunctionFits (T : Typing) (f : ObjectId) : Decidable (T.FunctionFits f) :=
  decidable_of_iff _ (functionFits_iff T f).symm

instance decidableSignaturesFit (T : Typing) (f g : ObjectId) : Decidable (T.SignaturesFit f g) :=
  decidable_of_iff _ (signaturesFit_iff T f g).symm

end Typing

/-! ## Nodes -/

/-- The edges to identifiers that are no expressions: names of packages and labels. -/
def plainNames : List Edge := [⟨.file, .name⟩, ⟨.importSpec, .name⟩, ⟨.labeledStmt, .label⟩, ⟨.branchStmt, .label⟩]

/-- The edges to expressions whose value is used. -/
def valueEdges : List Edge :=
  [⟨.assignStmt, .rhs⟩, ⟨.valueSpec, .values⟩, ⟨.callExpr, .args⟩, ⟨.returnStmt, .results⟩, ⟨.keyValueExpr, .value⟩,
    ⟨.sendStmt, .value⟩, ⟨.rangeStmt, .x⟩, ⟨.indexExpr, .x⟩, ⟨.sliceExpr, .x⟩, ⟨.starExpr, .x⟩, ⟨.unaryExpr, .x⟩,
    ⟨.selectorExpr, .sel⟩]

def Node.blank (n : Node) : Bool := n.kind = .ident && n.facts.name = "_"

/-- Whether a node is the symbolic variable of a type switch. -/
def Cursor.symbolic (c : Cursor) : Bool :=
  c.edge? = some ⟨.assignStmt, .lhs⟩ && (c.parent?.bind Cursor.edge?) = some ⟨.typeSwitchStmt, .assign⟩

/-- Names refer to something. -/
@[mk_iff]
structure NamesFit (T : Typing) (c : Cursor) : Prop where
  /-- Identifiers in expressions have an object, except the blank one and the symbolic variable of a type switch. -/
  named : c.node.kind = .ident → (∀ e ∈ c.edge?, e ∉ plainNames) → c.symbolic = false → c.node.blank = false →
    c.node.object?.isSome = true
  /-- Selectors are resolved, except qualified identifiers. -/
  selector : c.node.kind = .selectorExpr → (c.node.facts.selection.isSome = true ∨ qualified T c.node = true) ∧
    ∀ n ∈ c.node.childrenAt .sel, n.kind = .ident
  /-- A function's name in the function expression of a call is what the call calls. -/
  callee : c.node.facts.declares = none → ∀ f ∈ c.node.facts.uses, (T.signatureType? f).isSome = true →
    ∀ call ∈ callOf? c, T.called? call.node = some f

/-- Expressions have the values that their places ask for. -/
@[mk_iff]
structure ValuesFit (T : Typing) (c : Cursor) : Prop where
  /-- An expression that is used has a value; the blank identifier has none. -/
  valued : (∃ e ∈ c.edge?, e ∈ valueEdges) → 0 < T.valueCount c.node ∧ c.node.unparen.blank = false
  /-- Parentheses keep values as they are. -/
  paren : c.node.kind = .parenExpr → ∀ x ∈ c.node.childrenAt .x, T.valueCount x = T.valueCount c.node
  /-- A call has the results of its function, and each value that it passes has a parameter. -/
  call : c.node.kind = .callExpr → ∀ fn ∈ T.called? c.node, ∃ sig ∈ T.signature? (T.originFunc fn),
    T.valueCount c.node = sig.results.length ∧
      ∀ j < T.passedCount c.node, (sig.paramAt (argumentPlace (isMethodExprCall c.node) j)).isSome = true

/-- Values match what receives them. -/
@[mk_iff]
structure ReceiversFit (T : Typing) (c : Cursor) : Prop where
  /-- Assigned values match their targets. -/
  assign : c.node.kind = .assignStmt → T.Matches (c.node.childrenAt .lhs).length (c.node.childrenAt .rhs)
  /-- Initializers match the declared names. -/
  spec : c.node.kind = .valueSpec → (c.node.childrenAt .values).isEmpty = false →
    T.Matches (c.node.childrenAt .names).length (c.node.childrenAt .values)
  /-- Returned values match the results of the function around them. -/
  returned : c.node.kind = .returnStmt →
    (∃ fn ∈ c.enclosing?, fn.kind = .funcDecl → (enclosingSignature? T c).isSome = true) ∧
      ∀ sig ∈ enclosingSignature? T c, (c.node.childrenAt .results).isEmpty = false →
        T.Matches sig.results.length (c.node.childrenAt .results)
  /-- A positional struct literal has at most as many elements as the struct has fields. -/
  literal : c.node.kind = .compositeLit → ∀ fields ∈ structFields? T c.node,
    (∃ e ∈ c.node.childrenAt .elts, e.kind ≠ .keyValueExpr) → (c.node.childrenAt .elts).length ≤ fields.length

/-- Nodes stand where the grammar allows them. -/
@[mk_iff]
structure PlaceFits (c : Cursor) : Prop where
  /-- Trees are files. -/
  file : c.ancestors.isEmpty = true → c.node.kind = .file
  /-- Keyed elements stand in composite literals. -/
  keyed : c.node.kind = .keyValueExpr → c.edge? = some ⟨.compositeLit, .elts⟩
  /-- The symbolic variable of a type switch stands for a type assertion. -/
  guard : c.node.kind = .assignStmt → c.edge? = some ⟨.typeSwitchStmt, .assign⟩ →
    ∀ e ∈ c.node.childrenAt .rhs, e.kind = .typeAssertExpr

instance decidableNamesFit (T : Typing) (c : Cursor) : Decidable (NamesFit T c) :=
  decidable_of_iff _ (namesFit_iff T c).symm

instance decidableValuesFit (T : Typing) (c : Cursor) : Decidable (ValuesFit T c) :=
  decidable_of_iff _ (valuesFit_iff T c).symm

instance decidableReceiversFit (T : Typing) (c : Cursor) : Decidable (ReceiversFit T c) :=
  decidable_of_iff _ (receiversFit_iff T c).symm

instance decidablePlaceFits (c : Cursor) : Decidable (PlaceFits c) := decidable_of_iff _ (placeFits_iff c).symm

/-- The type information of a program is consistent with its syntax. -/
structure Program.Consistent (p : Program) : Prop where
  functions : ∀ f, p.typing.FunctionFits f
  signatures : ∀ f g, p.typing.SignaturesFit f g
  names : ∀ c, p.Holds c → NamesFit p.typing c
  values : ∀ c, p.Holds c → ValuesFit p.typing c
  receivers : ∀ c, p.Holds c → ReceiversFit p.typing c
  places : ∀ c, p.Holds c → PlaceFits c

/-! ## Consistency can be decided -/

namespace Typing

variable {T : Typing} {f g : ObjectId}

theorem lt_of_signatureType? (h : (T.signatureType? f).isSome = true) : f < T.objects.size := by
  rcases Nat.lt_or_ge f T.objects.size with hlt | hge
  · exact hlt
  · simp [signatureType?, objectForm?, object?, Array.getElem?_eq_none hge] at h

theorem lt_of_signature? {sig : Signature} (h : T.signature? f = some sig) : f < T.objects.size := by
  refine lt_of_signatureType? ?_
  cases ht : T.signatureType? f with
  | none => simp [signature?, ht] at h
  | some t => rfl

theorem lt_of_sameSignature (h : T.sameSignature f g = true) : f < T.objects.size ∧ g < T.objects.size := by
  unfold sameSignature at h
  split at h
  · rename_i hf hg
    exact ⟨lt_of_signatureType? (by simp [hf]), lt_of_signatureType? (by simp [hg])⟩
  · cases h

theorem lt_of_receiverType? {t : TypeId} (h : T.receiverType? f = some t) : f < T.objects.size := by
  obtain ⟨r, hr, -⟩ := Option.bind_eq_some_iff.1 h
  obtain ⟨sig, hs, -⟩ := Option.bind_eq_some_iff.1 hr
  exact lt_of_signature? hs

theorem lt_of_interfaceOf? {t : TypeId} (h : T.interfaceOf? f = some t) : f < T.objects.size := by
  unfold interfaceOf? at h
  split at h
  · cases h
  · rename_i u hu
    obtain ⟨r, hr, -⟩ := Option.map_eq_some_iff.1 hu
    exact lt_of_receiverType? hr

theorem lt_of_receiverImplements {t : TypeId} (h : T.receiverImplements f t = true) : f < T.objects.size := by
  unfold receiverImplements at h
  split at h
  · cases h
  · rename_i r hr
    exact lt_of_receiverType? hr

theorem lt_of_related (h : T.related f g = true) : f < T.objects.size ∧ g < T.objects.size := by
  unfold related at h
  split at h
  · rename_i hf _
    exact ⟨lt_of_interfaceOf? hf, lt_of_receiverImplements h⟩
  · rename_i _ hg
    exact ⟨lt_of_receiverImplements h, lt_of_interfaceOf? hg⟩
  · cases h

theorem functionFits_iff_table (T : Typing) :
    (∀ f, T.FunctionFits f) ↔ ∀ f < T.objects.size, T.FunctionFits f := by
  constructor
  · exact fun h f _ => h f
  · intro h f
    constructor
    · exact fun sig hs => (h f (lt_of_signature? hs)).typed sig hs
    · exact fun sig hs => (h f (lt_of_signature? hs)).variadic sig hs

theorem signaturesFit_iff_table (T : Typing) :
    (∀ f g, T.SignaturesFit f g) ↔ ∀ f < T.objects.size, ∀ g < T.objects.size, T.SignaturesFit f g := by
  constructor
  · exact fun h f _ g _ => h f g
  · intro h f g
    constructor
    · intro hsame
      obtain ⟨hf, hg⟩ := lt_of_sameSignature hsame
      exact (h f hf g hg).identical hsame
    · intro hname hrel
      obtain ⟨hf, hg⟩ := lt_of_related hrel
      exact (h f hf g hg).implements hname hrel

end Typing

/-- Only the objects in the table and the nodes of the packages matter. -/
theorem Program.consistent_iff (p : Program) : p.Consistent ↔
    (∀ f < p.typing.objects.size, p.typing.FunctionFits f) ∧
    (∀ f < p.typing.objects.size, ∀ g < p.typing.objects.size, p.typing.SignaturesFit f g) ∧
    ∀ package ∈ p.packages, ∀ c ∈ package.cursors,
      NamesFit p.typing c ∧ ValuesFit p.typing c ∧ ReceiversFit p.typing c ∧ PlaceFits c := by
  rw [← p.typing.functionFits_iff_table, ← p.typing.signaturesFit_iff_table]
  constructor
  · intro h
    refine ⟨h.functions, h.signatures, fun package hpackage c hc => ?_⟩
    have hholds : p.Holds c := ⟨package, hpackage, hc⟩
    exact ⟨h.names c hholds, h.values c hholds, h.receivers c hholds, h.places c hholds⟩
  · rintro ⟨hfunctions, hsignatures, hfit⟩
    have hholds : ∀ c, p.Holds c → NamesFit p.typing c ∧ ValuesFit p.typing c ∧ ReceiversFit p.typing c ∧
        PlaceFits c := fun c ⟨package, hpackage, hc⟩ => hfit package hpackage c hc
    exact ⟨hfunctions, hsignatures, fun c hc => (hholds c hc).1, fun c hc => (hholds c hc).2.1,
      fun c hc => (hholds c hc).2.2.1, fun c hc => (hholds c hc).2.2.2⟩

instance decidableConsistent (p : Program) : Decidable p.Consistent := decidable_of_iff _ p.consistent_iff.symm

/-! ## Shared parameters -/

/-- Two signatures take arguments at the same places. -/
structure Signature.Alike (s t : Signature) : Prop where
  receiver : s.receiver.isSome = t.receiver.isSome
  params : s.params.length = t.params.length
  variadic : s.variadic = t.variadic

theorem Signature.Alike.isSome_paramAt {s t : Signature} (h : s.Alike t) (place : Option Nat) :
    (s.paramAt place).isSome = (t.paramAt place).isSome := by
  cases place with
  | none => exact h.receiver
  | some j =>
    have hget : ∀ i : Nat, s.params[i]?.isSome = t.params[i]?.isSome := by
      intro i
      rw [Bool.eq_iff_iff, Option.isSome_iff_ne_none, Option.isSome_iff_ne_none, ne_eq, ne_eq,
        List.getElem?_eq_none_iff, List.getElem?_eq_none_iff, h.params]
    simp only [paramAt]
    rw [h.variadic, h.params]
    split
    · rw [List.getLast?_eq_getElem?, List.getLast?_eq_getElem?, h.params]
      exact hget _
    · exact hget j

namespace Typing

variable {T : Typing} {f g : ObjectId} {sig : Signature}

theorem FunctionFits.isSome_parameterAt? (hf : T.FunctionFits f) (hs : T.signature? f = some sig)
    {place : Option Nat} (hp : (sig.paramAt place).isSome = true) (ellipsis : Bool) :
    (parameterAt? T sig place ellipsis).isSome = true := by
  have htyped : ∀ o ∈ sig.receiver.toList ++ sig.params, ∃ t, T.varType? o = some t :=
    fun o ho => Option.isSome_iff_exists.1 (hf.typed sig hs o ho)
  obtain ⟨o, ho⟩ := Option.isSome_iff_exists.1 hp
  unfold parameterAt?
  unfold Signature.paramAt at ho
  cases place with
  | none =>
    obtain ⟨t, ht⟩ := htyped o (List.mem_append_left _ (by simpa using ho))
    simp only at ho
    simp [ho, ht]
  | some j =>
    simp only at ho ⊢
    split at ho
    · rename_i hlast
      obtain ⟨t, ht⟩ := htyped o (List.mem_append_right _ (List.mem_of_getLast? ho))
      have hvariadic : sig.variadic = true := by
        simp only [Bool.and_eq_true] at hlast
        exact hlast.1
      obtain ⟨e, he⟩ := (TypeForm.isSlice_iff _).1 (hf.variadic sig hs hvariadic o ho t ht)
      rw [if_pos hlast, ho]
      cases ellipsis <;> simp [ht, he]
    · rename_i hlast
      obtain ⟨t, ht⟩ := htyped o (List.mem_append_right _ (List.mem_of_getElem? ho))
      rw [if_neg hlast, ho]
      simp [ht]

theorem sameSignature_iff : T.sameSignature f g = true ↔
    ∃ c, (T.signatureType? f).map T.identityClass = some c ∧ (T.signatureType? g).map T.identityClass = some c := by
  unfold sameSignature identical
  cases T.signatureType? f <;> cases T.signatureType? g <;> simp [eq_comm]

theorem sameSignature_symm (h : T.sameSignature f g = true) : T.sameSignature g f = true := by
  obtain ⟨c, hf, hg⟩ := sameSignature_iff.1 h
  exact sameSignature_iff.2 ⟨c, hg, hf⟩

theorem sameSignature_trans {e : ObjectId} (h : T.sameSignature e f = true) (h' : T.sameSignature f g = true) :
    T.sameSignature e g = true := by
  obtain ⟨c, he, hf⟩ := sameSignature_iff.1 h
  obtain ⟨d, hf', hg⟩ := sameSignature_iff.1 h'
  obtain rfl : c = d := Option.some.inj (hf.symm.trans hf')
  exact sameSignature_iff.2 ⟨c, he, hg⟩

end Typing

namespace Program

variable {p : Program} {policy : OverridePolicy} {fn m : ObjectId} {sig : Signature}

theorem of_mem_methods {ix : Index} {T : Typing} {name : String} (h : m ∈ ix.methods T name) :
    T.nameOf m = name ∧ ∃ s, T.signature? m = some s ∧ s.receiver.isSome = true := by
  obtain ⟨-, h⟩ := List.mem_filter.1 h
  simp only [Bool.and_eq_true, decide_eq_true_eq, Option.any_eq_true] at h
  exact h

theorem mem_sharing_implements_iff :
    m ∈ p.sharing .implements fn ↔
      Relation.ReflTransGen (fun a b => b ∈ p.index.methods p.typing (p.typing.nameOf fn) ∧
        p.typing.related a b = true) fn m := by
  show m ∈ closure _ p.typing.related [fn] ↔ _
  rw [mem_closure, reach_singleton_iff]
  simp only [List.mem_eraseDups]

theorem mem_sharing_signature_iff : m ∈ p.sharing .signature fn ↔
    m = fn ∨ m ∈ p.index.methods p.typing (p.typing.nameOf fn) ∧ p.typing.sameSignature m fn = true := by
  by_cases h : m = fn <;> simp [sharing, h]

/-- Where related methods have the same signature, that of a function is shared under every policy. -/
theorem sharing_subset_signature (h : policy = .implements → ∀ f ∈ p.sharing .implements fn,
      ∀ g ∈ p.sharing .implements fn, p.typing.related f g = true → p.typing.sameSignature f g = true) :
    p.sharing policy fn ⊆ p.sharing .signature fn := by
  intro m hm
  cases policy with
  | exact => exact mem_sharing_signature_iff.2 (Or.inl (List.mem_singleton.1 hm))
  | signature => exact hm
  | implements =>
    -- along a chain of implementations the signature stays
    induction mem_sharing_implements_iff.1 hm with
    | refl => exact mem_sharing_signature_iff.2 (Or.inl rfl)
    | @tail a b hchain hab ih =>
      have ha := mem_sharing_implements_iff.2 hchain
      have hsame := Typing.sameSignature_symm (h rfl a ha b (mem_sharing_implements_iff.2 (hchain.tail hab)) hab.2)
      refine mem_sharing_signature_iff.2 (Or.inr ⟨hab.1, ?_⟩)
      rcases mem_sharing_signature_iff.1 (ih ha) with rfl | ⟨-, hstart⟩
      · exact hsame
      · exact Typing.sameSignature_trans hsame hstart

/-- Methods of one signature take arguments at the same places. -/
theorem alike_of_mem_signature (hT : ∀ f g, p.typing.sameSignature f g = true → ∀ s ∈ p.typing.signature? f,
      ∀ t ∈ p.typing.signature? g, s.params.length = t.params.length ∧ s.variadic = t.variadic)
    (hs : p.typing.signature? fn = some sig) (hr : sig.receiver.isSome = true) (hm : m ∈ p.sharing .signature fn) :
    ∃ s, p.typing.signature? m = some s ∧ s.Alike sig := by
  rcases mem_sharing_signature_iff.1 hm with rfl | ⟨hm, hsame⟩
  · exact ⟨sig, hs, rfl, rfl, rfl⟩
  · obtain ⟨-, s, hsm, hrm⟩ := of_mem_methods hm
    obtain ⟨hparams, hvariadic⟩ := hT m fn hsame s hsm sig hs
    exact ⟨s, hsm, hrm.trans hr.symm, hparams, hvariadic⟩

end Program

end NilFlow
