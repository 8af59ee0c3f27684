import NilFlow.Proofs.Flow.Stores

/-!
# Down to what holds a value

The variable that holds the value of an expression is looked for downwards, and what depends on it upwards from one of
its matches.

* `exists_callee`: a call of a declared function leads down to the identifier that names the function.
* `Descends`: a step down; `producer_cases` says that the search for the variable takes one, or ends.
* `OpensDown`: whatever is indexed or dereferenced on the way down holds values.
* `Match.Locates`: a match of the variable where the way down ends.
* `exists_arrival`: the walk up from that match comes back to the expression.
* `Classifier.converse_walks`: so the match discovers what is found from the expression.
-/

namespace NilFlow

variable {T : Typing} {p : Program} {c d call : Cursor} {slot : Option Nat} {o fn : ObjectId} {v : Variable}

/-! ## Callees -/

theorem Cursor.Calls.unparen (h : call.Calls c) : ∃ d, call.Calls d ∧ d.node = c.node.unparen := by
  induction c using Cursor.induction_children with
  | h c ih =>
    by_cases hk : c.node.kind = .parenExpr
    · cases hx : c.node.child? .x with
      | none => exact ⟨c, h, (unparen_of_none hx).symm⟩
      | some n =>
        obtain ⟨d, hd, rfl⟩ := Cursor.exists_child hx
        obtain ⟨hchild, hfield⟩ := Cursor.mem_childrenAt.1 hd
        rw [unparen_paren hk hx]
        exact ih d hchild (h.inner hchild hfield (by simp [functionEdges, hk]))
    · exact ⟨c, h, (unparen_of_ne hk).symm⟩

theorem Program.Holds.calls (h : p.Holds call) (hc : call.Calls c) : p.Holds c := by
  induction hc with
  | callee _ hd hf => exact h.child (Cursor.mem_childrenAt.2 ⟨hd, hf⟩)
  | inner _ hd hf _ ih => exact ih.child (Cursor.mem_childrenAt.2 ⟨hd, hf⟩)

theorem Cursor.Calls.child {f : FieldName} {n : Node} (h : call.Calls c) (hn : c.node.child? f = some n)
    (he : ⟨c.node.kind, f⟩ ∈ functionEdges) : ∃ d, call.Calls d ∧ d.node = n := by
  obtain ⟨d, hd, rfl⟩ := Cursor.exists_child hn
  obtain ⟨hchild, hfield⟩ := Cursor.mem_childrenAt.1 hd
  exact ⟨d, h.inner hchild hfield he, rfl⟩

theorem exists_calleeIdent {n : Node} (hk : call.node.kind = .callExpr) (h : calleeIdent? call.node = some n) :
    ∃ d, call.Calls d ∧ (d.node = n ∧ n.kind = .ident ∨ d.node.kind = .selectorExpr ∧ d.node.child? .sel = some n) := by
  unfold calleeIdent? at h
  split at h
  · cases h
  · rename_i f hf
    obtain ⟨g, hg, rfl⟩ := Option.map_eq_some_iff.1 hf
    obtain ⟨d₀, hd₀, rfl⟩ := Cursor.exists_child hg
    obtain ⟨hchild, hfield⟩ := Cursor.mem_childrenAt.1 hd₀
    obtain ⟨d₁, hd₁, hnode⟩ := (Cursor.Calls.callee hk hchild hfield).unparen
    rw [← hnode] at h
    dsimp only at h
    split at h
    · cases h
    · rename_i e he
      obtain ⟨x, hx, rfl⟩ := Option.map_eq_some_iff.1 he
      -- an instantiation is passed over
      have hinst : ∃ d₂, call.Calls d₂ ∧ d₂.node = x := by
        split at hx
        · rename_i hindex
          split at hx
          · exact hd₁.child hx (by simp [functionEdges, hindex])
          · exact ⟨d₁, hd₁, Option.some.inj hx⟩
        · rename_i hindices
          exact hd₁.child hx (by simp [functionEdges, hindices])
        · exact ⟨d₁, hd₁, Option.some.inj hx⟩
      obtain ⟨d₂, hd₂, rfl⟩ := hinst
      obtain ⟨d₃, hd₃, hnode⟩ := hd₂.unparen
      rw [← hnode] at h
      refine ⟨d₃, hd₃, ?_⟩
      split at h
      · rename_i hident
        cases h
        exact Or.inl ⟨rfl, hident⟩
      · rename_i hsel
        exact Or.inr ⟨hsel, h⟩
      · cases h

theorem exists_callee (hw : p.Resolved) (hq : p.Holds call) (hk : call.node.kind = .callExpr)
    (h : calleeOf p.typing call.node = .func fn) :
    ∃ c, p.Holds c ∧ call.Calls c ∧ UsesFunction p.typing c (p.typing.originFunc fn) := by
  unfold calleeOf at h
  split at h
  · cases h
  · rename_i o ho
    obtain ⟨n, hn, huses⟩ := Option.bind_eq_some_iff.1 ho
    have hfunc : o = fn ∧ (p.typing.signatureType? o).isSome = true := by
      split at h
      · cases h
      · rename_i t g hform
        cases h
        exact ⟨rfl, by simp [Typing.signatureType?, hform]⟩
      · cases h
    obtain ⟨rfl, hsignature⟩ := hfunc
    have hnamed : ∃ c, call.Calls c ∧ c.node = n ∧ n.kind = .ident := by
      obtain ⟨d, hd, ⟨hnode, hident⟩ | ⟨hsel, hchild⟩⟩ := exists_calleeIdent hk hn
      · exact ⟨d, hd, hnode, hident⟩
      · obtain ⟨-, hident⟩ := (hw.names d (hq.calls hd)).selector hsel
        obtain ⟨c, hc, hnode⟩ := hd.child hchild (by simp [functionEdges, hsel])
        exact ⟨c, hc, hnode, hident n (Cursor.mem_childrenAt_of_child? hchild)⟩
    obtain ⟨c, hc, rfl, hident⟩ := hnamed
    have hholds := hq.calls hc
    exact ⟨c, hholds, hc, hident, (hw.objects c hholds).function o huses hsignature, o, huses, rfl⟩

/-! ## Steps down -/

/-- An expression takes its value from another one. The slot is the number of the value that is asked for, and only
parentheses pass it on. -/
inductive Descends (T : Typing) : Cursor × Option Nat → Cursor × Option Nat → Prop where
  | inner {c d : Cursor} {slot : Option Nat} (hk : c.node.kind = .parenExpr) (hd : (c.childrenAt .x).head? = some d) :
      Descends T (c, slot) (d, slot)
  | operand {c d : Cursor} {slot : Option Nat}
      (hk : c.node.kind = .sliceExpr ∨ c.node.kind = .unaryExpr ∧ c.node.facts.operator = "<-")
      (hd : (c.childrenAt .x).head? = some d) : Descends T (c, slot) (d, none)
  | opened {c d : Cursor} {slot : Option Nat} (hk : c.node.kind = .indexExpr ∨ c.node.kind = .starExpr)
      (hd : (c.childrenAt .x).head? = some d) : Descends T (c, slot) (d, none)
  | appended {c d : Cursor} {slot : Option Nat} (hk : c.node.kind = .callExpr)
      (hconversion : isConversion c.node = false) (hf : calleeOf T c.node = .builtin "append")
      (hd : (c.childrenAt .args).head? = some d) : Descends T (c, slot) (d, none)

/-- Whatever is indexed or dereferenced on the way down from an expression holds values. -/
def OpensDown (T : Typing) (start : Cursor × Option Nat) : Prop :=
  ∀ s t, Relation.ReflTransGen (Descends T) start s → Descends T s t →
    s.1.node.kind = .indexExpr ∨ s.1.node.kind = .starExpr → t.1.node.facts.type.any T.isContainer = true

namespace Descends

variable {s t : Cursor × Option Nat}

theorem exists_field (h : Descends T s t) : ∃ f, t.1 ∈ s.1.childrenAt f ∧
    (f = .x ∨ f = .args ∧ s.1.node.kind = .callExpr) := by
  cases h with
  | inner _ hd => exact ⟨.x, List.mem_of_head? hd, Or.inl rfl⟩
  | operand _ hd => exact ⟨.x, List.mem_of_head? hd, Or.inl rfl⟩
  | opened _ hd => exact ⟨.x, List.mem_of_head? hd, Or.inl rfl⟩
  | appended hk _ _ hd => exact ⟨.args, List.mem_of_head? hd, Or.inr ⟨rfl, hk⟩⟩

theorem mem_operand (h : Descends T s t) (hk : s.1.node.kind = .indexExpr ∨ s.1.node.kind = .starExpr) :
    t.1 ∈ s.1.childrenAt .x := by
  obtain ⟨f, hmem, rfl | ⟨-, hcall⟩⟩ := h.exists_field
  · exact hmem
  · simp [hcall] at hk

theorem below (h : Relation.ReflTransGen (Descends T) s t) : s.1.Below t.1 := by
  induction h with
  | refl => exact .self
  | tail _ hstep ih =>
    obtain ⟨f, hmem, -⟩ := hstep.exists_field
    exact ih.child (Cursor.mem_childrenAt.1 hmem).1

theorem wholeSelector_eq (h : Descends T s t) : Classifier.wholeSelector t.1 = t.1 := by
  obtain ⟨f, hmem, hf⟩ := h.exists_field
  have hedge : t.1.edge? ≠ some ⟨.selectorExpr, .sel⟩ := by
    rw [Cursor.edge?_of_mem_childrenAt hmem]
    rcases hf with rfl | ⟨rfl, -⟩ <;> simp
  rw [Classifier.wholeSelector, if_neg hedge]

end Descends

theorem OpensDown.step {s t : Cursor × Option Nat} (h : OpensDown T s) (ht : Descends T s t) : OpensDown T t :=
  fun _ _ hway => h _ _ (hway.head ht)

theorem opensDown_of_below (h : ∀ e, c.Below e → e.node.kind = .indexExpr ∨ e.node.kind = .starExpr →
    ∀ d ∈ e.childrenAt .x, d.node.facts.type.any T.isContainer = true) : OpensDown T (c, slot) := by
  intro s t hway hstep hk
  exact h s.1 (Descends.below hway) hk t.1 (hstep.mem_operand hk)

/-- The number of the result that is asked for, when an expression without its parentheses is a call of a declared
function. No other expression has a number. -/
def Typing.resultSlot (T : Typing) (e : Node) (slot : Option Nat) : Option Nat :=
  if e.unparen.kind = .callExpr ∧ (T.called? e.unparen).isSome then some (slot.getD 0) else none

/-! ## The search for the variable -/

theorem exists_child_of_elim {f : FieldName} {g : Node → Except Failure (Option ObjectId)}
    (h : (c.node.child? f).elim (.ok none) g = .ok (some o)) :
    ∃ d, (c.childrenAt f).head? = some d ∧ g d.node = .ok (some o) := by
  rw [← Cursor.head?_childrenAt] at h
  cases hd : (c.childrenAt f).head? with
  | none =>
    rw [hd] at h
    cases h
  | some d =>
    rw [hd] at h
    exact ⟨d, rfl, h⟩

theorem object?_of_producerIdent {n : Node} (h : producerIdent T n = .ok (some o)) : n.object? = some o := by
  unfold producerIdent at h
  split at h
  · cases h
  · rename_i x hx
    split at h
    · cases h
      exact hx
    · cases h

/-- An expression is a name, or a selector that selects one. -/
def Cursor.NamedBy (c d : Cursor) : Prop :=
  d.node.kind = .ident ∧ (c = d ∨ c.node.kind = .selectorExpr ∧ d ∈ c.childrenAt .sel)

theorem Cursor.NamedBy.below (h : c.NamedBy d) : c.Below d := by
  obtain ⟨-, rfl | ⟨-, hd⟩⟩ := h
  · exact .self
  · exact .child .self (Cursor.mem_childrenAt.1 hd).1

theorem namedBy_of_selection (hw : p.Resolved) (hc : p.Holds c) (hk : c.node.kind = .selectorExpr) {s : Selection}
    (hs : c.node.facts.selection = some s) (hfield : s.kind = .field) :
    ∃ d, c.NamedBy d ∧ d.node.object? = some s.object := by
  obtain ⟨n, hn, ho⟩ := (hw.objects c hc).selected hk s hs hfield
  have hident := ((hw.names c hc).selector hk).2 n hn
  obtain ⟨d, hd, rfl⟩ := Cursor.exists_mem_childrenAt hn
  exact ⟨d, ⟨hident, Or.inr ⟨hk, hd⟩⟩, ho⟩

theorem namedBy_of_qualified (hw : p.Resolved) (hc : p.Holds c) (hk : c.node.kind = .selectorExpr)
    (hd : (c.childrenAt .sel).head? = some d) : c.NamedBy d := by
  have hmem := List.mem_of_head? hd
  exact ⟨((hw.names c hc).selector hk).2 d.node (Cursor.node_mem_of_mem_childrenAt hmem), Or.inr ⟨hk, hmem⟩⟩

theorem namedBy_of_producer (hw : p.Resolved) (hc : p.Holds c) (hk : c.node.kind = .selectorExpr)
    (h : producer p.typing c.node slot = .ok (some o)) : ∃ d, c.NamedBy d ∧ d.node.object? = some o := by
  rw [producer_eq, hk] at h
  dsimp only at h
  split at h
  · rename_i s hs
    split at h
    · rename_i hfield
      cases h
      simp only [Bool.and_eq_true, decide_eq_true_eq] at hfield
      exact namedBy_of_selection hw hc hk hs hfield.1
    · cases h
  · obtain ⟨d, hd, h⟩ := exists_child_of_elim h
    have hnamed := namedBy_of_qualified hw hc hk hd
    rw [producer_eq, hnamed.1] at h
    exact ⟨d, hnamed, object?_of_producerIdent h⟩

theorem exists_result_of_producedResult (h : producedResult T c.node fn slot = .ok (some o)) :
    ∃ sig, T.signature? (T.originFunc fn) = some sig ∧ sig.results[slot.getD 0]? = some o := by
  unfold producedResult at h
  split at h
  · rename_i r hr
    cases h
    cases hs : T.signature? (T.originFunc fn) with
    | none => simp [hs] at hr
    | some sig =>
      rw [hs] at hr
      exact ⟨sig, rfl, hr⟩
  · cases h

/-- The search ends at a name or at a call of a declared function, or it takes a step down. -/
theorem producer_cases (hw : p.Resolved) (hc : p.Holds c) (h : producer p.typing c.node slot = .ok (some o)) :
    (∃ d, c.NamedBy d ∧ d.node.object? = some o) ∨
    (c.node.kind = .callExpr ∧ ∃ fn sig, calleeOf p.typing c.node = .func fn ∧
      p.typing.signature? (p.typing.originFunc fn) = some sig ∧ sig.results[slot.getD 0]? = some o) ∨
    ∃ t, Descends p.typing (c, slot) t ∧ producer p.typing t.1.node t.2 = .ok (some o) := by
  cases hk : c.node.kind with
  | ident =>
    rw [producer_eq, hk] at h
    exact Or.inl ⟨c, ⟨hk, Or.inl rfl⟩, object?_of_producerIdent h⟩
  | selectorExpr => exact Or.inl (namedBy_of_producer hw hc hk h)
  | parenExpr =>
    rw [producer_eq, hk] at h
    obtain ⟨d, hd, h⟩ := exists_child_of_elim h
    exact Or.inr (Or.inr ⟨_, .inner hk hd, h⟩)
  | callExpr =>
    rw [producer_eq, hk] at h
    dsimp only at h
    split at h
    · split at h <;> cases h
    · rename_i hconversion
      split at h
      · rename_i name hf
        split at h
        · rename_i happend
          subst happend
          obtain ⟨d, hd, h⟩ := exists_child_of_elim h
          exact Or.inr (Or.inr ⟨_, .appended hk (by simpa using hconversion) hf hd, h⟩)
        · cases h
      · rename_i fn hf
        obtain ⟨sig, hs, hr⟩ := exists_result_of_producedResult h
        exact Or.inr (Or.inl ⟨rfl, fn, sig, hf, hs, hr⟩)
      · cases h
  | indexExpr =>
    rw [producer_eq, hk] at h
    dsimp only at h
    split at h
    · obtain ⟨d, hd, h⟩ := exists_child_of_elim h
      exact Or.inr (Or.inr ⟨_, .opened (Or.inl hk) hd, h⟩)
    · cases h
  | sliceExpr =>
    rw [producer_eq, hk] at h
    obtain ⟨d, hd, h⟩ := exists_child_of_elim h
    exact Or.inr (Or.inr ⟨_, .operand (Or.inl hk) hd, h⟩)
  | starExpr =>
    rw [producer_eq, hk] at h
    obtain ⟨d, hd, h⟩ := exists_child_of_elim h
    exact Or.inr (Or.inr ⟨_, .opened (Or.inr hk) hd, h⟩)
  | unaryExpr =>
    rw [producer_eq, hk] at h
    dsimp only at h
    split at h
    · rename_i hoperator
      obtain ⟨d, hd, h⟩ := exists_child_of_elim h
      exact Or.inr (Or.inr ⟨_, .operand (Or.inr ⟨hk, hoperator⟩) hd, h⟩)
    · cases h
  | _ =>
    rw [producer_eq, hk] at h
    cases h

/-! ## Matches where the search ends -/

/-- A match of the variable that the search ends with: its name there, or the name of the function whose result it
is. -/
inductive Match.Locates (T : Typing) (m : Match) (o : ObjectId) : Cursor × Option Nat → Prop where
  | name {c d : Cursor} {slot : Option Nat} (hd : c.NamedBy d) (ho : d.node.object? = some o) (hm : m.cursor = some d)
      (hk : m.kind = if d.node.facts.declares.isSome then .definition else .use) : Locates T m o (c, slot)
  | result {call d : Cursor} {slot : Option Nat} {fn : ObjectId} {sig : Signature} (hd : call.Calls d)
      (huses : UsesFunction T d (T.originFunc fn)) (hf : calleeOf T call.node = .func fn)
      (hs : T.signature? (T.originFunc fn) = some sig) (hr : sig.results[slot.getD 0]? = some o)
      (hm : m.cursor = some d) (hk : m.kind = .call) (hslot : m.slot = some (slot.getD 0)) : Locates T m o (call, slot)

theorem Cursor.Below.of_calls (h : call.Calls c) : call.Below c := by
  induction h with
  | callee _ hd _ => exact .child .self hd
  | inner _ hd _ _ ih => exact ih.child hd

theorem Match.Locates.below {m : Match} {s : Cursor × Option Nat} (h : m.Locates T o s) :
    ∃ d, m.cursor = some d ∧ s.1.Below d := by
  cases h with
  | name hd _ hm _ => exact ⟨_, hm, hd.below⟩
  | result hd _ _ _ _ hm _ _ => exact ⟨_, hm, .of_calls hd⟩

theorem wholeSelector_of_ne_ident (hw : p.Resolved) (hc : p.Holds c) (hk : c.node.kind ≠ .ident) :
    Classifier.wholeSelector c = c := by
  refine if_neg fun hedge => hk ?_
  obtain ⟨q, hq, hkind, hfield⟩ := Cursor.exists_parent_of_edge? hedge
  obtain ⟨hparent, hchild⟩ := hc.of_parent? hq
  exact ((hw.names q hparent).selector hkind).2 c.node
    (Cursor.node_mem_of_mem_childrenAt (Cursor.mem_childrenAt.2 ⟨hchild, hfield⟩))

theorem Cursor.NamedBy.wholeSelector_eq (h : c.NamedBy d) (hw : p.Resolved) (hc : p.Holds c) :
    Classifier.wholeSelector d = Classifier.wholeSelector c := by
  obtain ⟨-, rfl | ⟨hk, hd⟩⟩ := h
  · rfl
  · rw [wholeSelector_of_ne_ident hw hc (by simp [hk]), Classifier.wholeSelector, Cursor.edge?_of_mem_childrenAt hd, hk,
      if_pos rfl, Cursor.parent?_of_mem_children (Cursor.mem_childrenAt.1 hd).1]
    rfl

theorem exists_match_of_ident (hi : p.Indexed) (hd : p.Holds d) (hk : d.node.kind = .ident)
    (ho : d.node.object? = some o) (hv : p.typing.variableOf? o = some v) :
    ∃ m ∈ p.index.occurrencesOf v, m.inDocComment = false ∧ m.cursor = some d ∧
      m.kind = (if d.node.facts.declares.isSome then .definition else .use) ∧
      Arrives p.typing m (Classifier.wholeSelector d) none := by
  obtain ⟨package, hpackage, hmem⟩ := hd
  have hm := mem_matchesAt_ident hk ho hv package.ref.number
  refine ⟨_, (Program.mem_occurrencesOf_iff hi).2 ⟨rfl, package, hpackage, d, hmem, hm⟩, rfl, rfl, rfl, _,
    .name ?_ rfl hk, .refl⟩
  split
  · exact Or.inl rfl
  · exact Or.inr rfl

theorem exists_match_of_namedBy (hi : p.Indexed) (hw : p.Resolved) (hc : p.Holds c) (hd : c.NamedBy d)
    (ho : d.node.object? = some o) (hv : p.typing.variableOf? o = some v) (slot : Option Nat) :
    ∃ m ∈ p.index.occurrencesOf v, m.inDocComment = false ∧ m.Locates p.typing o (c, slot) ∧
      Arrives p.typing m (Classifier.wholeSelector c) none := by
  obtain ⟨m, hm, hdoc, hcursor, hkind, harrives⟩ := exists_match_of_ident hi (hc.trans hd.below) hd.1 ho hv
  rw [hd.wholeSelector_eq hw hc] at harrives
  exact ⟨m, hm, hdoc, .name hd ho hcursor hkind, harrives⟩

/-- The name of a function is a match of a result at each call, and the walk starts from the call. -/
theorem exists_match_of_call (hi : p.Indexed) (hw : p.Resolved) (hc : p.Holds call) (hk : call.node.kind = .callExpr)
    {sig : Signature} (hf : calleeOf p.typing call.node = .func fn)
    (hs : p.typing.signature? (p.typing.originFunc fn) = some sig) (hr : sig.results[slot.getD 0]? = some o)
    (hv : p.typing.variableOf? o = some v) :
    ∃ m ∈ p.index.occurrencesOf v, m.inDocComment = false ∧ m.Locates p.typing o (call, slot) ∧
      Arrives p.typing m call (some (slot.getD 0)) := by
  obtain ⟨d, ⟨package, hpackage, hmem⟩, hcalls, huses⟩ := exists_callee hw hc hk hf
  have hm := mem_matchesAt_call huses hs hcalls hr hv package.ref.number
  exact ⟨_, (Program.mem_occurrencesOf_iff hi).2 ⟨rfl, package, hpackage, d, hmem, hm⟩, rfl,
    .result hcalls huses hf hs hr rfl rfl rfl, _, .call rfl rfl (callOf?_of_calls hcalls) hk, .refl⟩

/-! ## Back up -/

/-- The walk goes on from an operand, when what it opens holds values. -/
theorem lift_of_operand (hd : d ∈ c.childrenAt .x)
    (hk : c.node.kind ∈ [NodeKind.parenExpr, .sliceExpr, .indexExpr, .starExpr] ∨
      c.node.kind = .unaryExpr ∧ c.node.facts.operator = "<-")
    (hopens : c.node.kind = .indexExpr ∨ c.node.kind = .starExpr → d.node.facts.type.any T.isContainer = true) :
    Lift T (d, slot) (c, if c.node.kind = .parenExpr then slot else none) := by
  refine .operand (Cursor.mem_childrenAt.1 hd).1 ?_
  rw [contextOf_child hd]
  rcases hk with hk | ⟨hk, hoperator⟩
  · simp only [List.mem_cons, List.not_mem_nil, or_false] at hk
    rcases hk with hk | hk | hk | hk
    · rw [hk]
      exact Or.inl rfl
    · rw [hk]
      exact Or.inl rfl
    · rw [hk]
      exact Or.inr (if_pos (hopens (Or.inl hk)))
    · rw [hk]
      exact Or.inr (if_pos (hopens (Or.inr hk)))
  · rw [hk]
    exact Or.inl (if_pos (by simp [hoperator]))

theorem resultSlot_of_ne (hparen : c.node.kind ≠ .parenExpr) (hcall : c.node.kind ≠ .callExpr) :
    T.resultSlot c.node slot = none := by
  unfold Typing.resultSlot
  rw [unparen_of_ne hparen, if_neg (fun h => hcall h.1)]

/-- The walk up retraces a step down, with the slots of both values. -/
theorem Descends.lift {slot' : Option Nat} (h : Descends T (c, slot) (d, slot')) (hopens : OpensDown T (c, slot)) :
    Lift T (d, T.resultSlot d.node slot') (c, T.resultSlot c.node slot) := by
  have hcontainer := hopens _ _ .refl h
  have hnone (hparen : c.node.kind ≠ .parenExpr) (hcall : c.node.kind ≠ .callExpr) : T.resultSlot c.node slot =
      if c.node.kind = .parenExpr then T.resultSlot d.node none else none := by
    rw [resultSlot_of_ne hparen hcall, if_neg hparen]
  cases h with
  | inner hk hd =>
    have hchild : c.node.child? .x = some d.node := by
      rw [← Cursor.head?_childrenAt, hd]
      rfl
    have hslot : T.resultSlot c.node slot = if c.node.kind = .parenExpr then T.resultSlot d.node slot else none := by
      rw [if_pos hk]
      unfold Typing.resultSlot
      rw [unparen_paren hk hchild]
    rw [hslot]
    exact lift_of_operand (List.mem_of_head? hd) (Or.inl (by simp [hk])) hcontainer
  | operand hk hd =>
    rw [hnone (by grind) (by grind)]
    exact lift_of_operand (List.mem_of_head? hd) (by grind) hcontainer
  | opened hk hd =>
    rw [hnone (by grind) (by grind)]
    exact lift_of_operand (List.mem_of_head? hd) (by grind) hcontainer
  | appended hk hconversion hf hd =>
    have hmem := List.mem_of_head? hd
    have hctx : contextOf T d = .argument := by
      rw [contextOf_child hmem, hk]
      exact if_neg (by simp [hconversion])
    have hslot : T.resultSlot c.node slot = none := by
      unfold Typing.resultSlot Typing.called?
      rw [unparen_of_ne (by simp [hk]), hf, if_neg (by simp)]
    rw [hslot]
    exact .appended (Cursor.mem_childrenAt.1 hmem).1 hctx hf

/-- The walk from a match of the variable that holds a value comes back to the expression. -/
theorem exists_arrival (hi : p.Indexed) (hw : p.Resolved) (hv : p.typing.variableOf? o = some v) (c : Cursor) :
    ∀ {slot : Option Nat}, p.Holds c → OpensDown p.typing (c, slot) → producer p.typing c.node slot = .ok (some o) →
      ∃ m ∈ p.index.occurrencesOf v, m.inDocComment = false ∧
        (∃ bottom, Relation.ReflTransGen (Descends p.typing) (c, slot) bottom ∧ m.Locates p.typing o bottom) ∧
        Arrives p.typing m (Classifier.wholeSelector c) (p.typing.resultSlot c.node slot) := by
  induction c using Cursor.induction_children with
  | h c ih =>
    intro slot hc hopens h
    rcases producer_cases hw hc h with ⟨d, hd, ho⟩ | ⟨hk, fn, sig, hf, hs, hr⟩ | ⟨⟨d, slot'⟩, hstep, h⟩
    · obtain ⟨m, hm, hdoc, hlocates, harrives⟩ := exists_match_of_namedBy hi hw hc hd ho hv slot
      refine ⟨m, hm, hdoc, ⟨_, .refl, hlocates⟩, ?_⟩
      have hkind : c.node.kind = .ident ∨ c.node.kind = .selectorExpr := by
        obtain ⟨hident, rfl | ⟨hk, -⟩⟩ := hd
        · exact Or.inl hident
        · exact Or.inr hk
      rwa [resultSlot_of_ne (by grind) (by grind)]
    · obtain ⟨m, hm, hdoc, hlocates, harrives⟩ := exists_match_of_call hi hw hc hk hf hs hr hv
      refine ⟨m, hm, hdoc, ⟨_, .refl, hlocates⟩, ?_⟩
      have hslot : p.typing.resultSlot c.node slot = some (slot.getD 0) := by
        unfold Typing.resultSlot
        rw [unparen_of_ne (by simp [hk]), Typing.called?_of_func hf, if_pos ⟨hk, rfl⟩]
      rwa [wholeSelector_of_ne_ident hw hc (by simp [hk]), hslot]
    · -- the walk that comes to the operand goes one step further up
      obtain ⟨f, hmem, -⟩ := hstep.exists_field
      obtain ⟨m, hm, hdoc, ⟨bottom, hway, hlocates⟩, harrives⟩ :=
        ih d (Cursor.mem_childrenAt.1 hmem).1 (hc.child hmem) (hopens.step hstep) h
      refine ⟨m, hm, hdoc, ⟨bottom, hway.head hstep, hlocates⟩, ?_⟩
      rw [hstep.wholeSelector_eq] at harrives
      rw [wholeSelector_of_ne_ident hw hc (by rintro hk; cases hstep <;> grind)]
      exact harrives.lift (hstep.lift hopens)

namespace Classifier

variable {k : Classifier}

/-- The search for the variable that holds a value and the walk from the match where the search ends are converse: the
match discovers, or fails with, what is found from the expression. The name that a selector selects is followed from the
selector. -/
theorem converse_walks (hi : k.program.Indexed) (hw : k.program.Resolved) (hc : k.program.Holds c)
    (hopens : OpensDown k.program.typing (c, slot)) (hp : producer k.program.typing c.node slot = .ok (some o))
    (hv : k.program.typing.variableOf? o = some v) :
    ∃ m ∈ k.program.index.occurrencesOf v,
      (∃ bottom, Relation.ReflTransGen (Descends k.program.typing) (c, slot) bottom ∧
        m.Locates k.program.typing o bottom) ∧
      (∃ d, m.cursor = some d ∧ c.Below d) ∧
      (k.propagate m).1.discoveries =
        (k.flowOf (k.dependents (wholeSelector c) (k.program.typing.resultSlot c.node slot)).found).discoveries ∧
      (k.propagate m).2 = (k.dependents (wholeSelector c) (k.program.typing.resultSlot c.node slot)).failure.map
        fun f => (f.attributedTo v).placedAt m.span := by
  obtain ⟨m, hm, -, ⟨bottom, hway, hlocates⟩, harrives⟩ := exists_arrival hi hw hv c hc hopens hp
  obtain ⟨hdiscoveries, hfailure⟩ := discoveries_of_arrives harrives
  obtain ⟨d, hd, hbelow⟩ := hlocates.below
  obtain ⟨rfl, -⟩ := (Program.mem_occurrencesOf_iff hi).1 hm
  exact ⟨m, hm, ⟨bottom, hway, hlocates⟩, ⟨d, hd, (Descends.below hway).trans hbelow⟩, hdiscoveries, hfailure⟩

end Classifier

/-! ## An element of a result -/

namespace Spreading

/-- The syntax of `type T struct{}`, `func (T) m(x ...*int) {}`, `func g() (t T, y *int) { return }`,
`func l() []*int { return nil }`, `var V = (l())[0]` and `func h() { T.m(g()) }`. -/
def source : Node :=
  .mk ⟨none, .file, ⟨1, 161⟩, {}⟩ [
    .mk ⟨some .name, .ident, ⟨9, 10⟩, { name := "p" }⟩ [],
    .mk ⟨some .decls, .genDecl, ⟨12, 27⟩, {}⟩ [
      .mk ⟨some .specs, .typeSpec, ⟨17, 27⟩, {}⟩ [
        .mk ⟨some .name, .ident, ⟨17, 18⟩, { name := "T", declares := some 0, type := some 0 }⟩ [],
        .mk ⟨some .typeExpr, .structType, ⟨19, 27⟩, { type := some 1, isType := true }⟩ [
          .mk ⟨some .fields, .fieldList, ⟨25, 27⟩, {}⟩ []]]],
    .mk ⟨some .decls, .funcDecl, ⟨29, 53⟩, {}⟩ [
      .mk ⟨some .recv, .fieldList, ⟨34, 37⟩, {}⟩ [
        .mk ⟨some .list, .field, ⟨35, 36⟩, {}⟩ [
          .mk ⟨some .typeExpr, .ident, ⟨35, 36⟩, { name := "T", uses := some 0, type := some 0, isType := true }⟩ []]],
      .mk ⟨some .name, .ident, ⟨38, 39⟩, { name := "m", declares := some 3, type := some 2 }⟩ [],
      .mk ⟨some .typeExpr, .funcType, ⟨29, 50⟩, {}⟩ [
        .mk ⟨some .params, .fieldList, ⟨39, 50⟩, {}⟩ [
          .mk ⟨some .list, .field, ⟨40, 49⟩, {}⟩ [
            .mk ⟨some .names, .ident, ⟨40, 41⟩, { name := "x", declares := some 2, type := some 3 }⟩ [],
            .mk ⟨some .typeExpr, .ellipsis, ⟨42, 49⟩, { type := some 3, isType := true }⟩ [
              .pointerType .elt 45 4 4 5]]]],
      .mk ⟨some .body, .blockStmt, ⟨51, 53⟩, {}⟩ []],
    .mk ⟨some .decls, .funcDecl, ⟨55, 88⟩, {}⟩ [
      .mk ⟨some .name, .ident, ⟨60, 61⟩, { name := "g", declares := some 7, type := some 6 }⟩ [],
      .mk ⟨some .typeExpr, .funcType, ⟨55, 77⟩, {}⟩ [
        .mk ⟨some .params, .fieldList, ⟨61, 63⟩, {}⟩ [],
        .mk ⟨some .results, .fieldList, ⟨64, 77⟩, {}⟩ [
          .mk ⟨some .list, .field, ⟨65, 68⟩, {}⟩ [
            .mk ⟨some .names, .ident, ⟨65, 66⟩, { name := "t", declares := some 5, type := some 0 }⟩ [],
            .mk ⟨some .typeExpr, .ident, ⟨67, 68⟩,
              { name := "T", uses := some 0, type := some 0, isType := true }⟩ []],
          .mk ⟨some .list, .field, ⟨70, 76⟩, {}⟩ [
            .mk ⟨some .names, .ident, ⟨70, 71⟩, { name := "y", declares := some 6, type := some 7 }⟩ [],
            .pointerType .typeExpr 72 7 4 5]]],
      .mk ⟨some .body, .blockStmt, ⟨78, 88⟩, {}⟩ [
        .mk ⟨some .list, .returnStmt, ⟨80, 86⟩, {}⟩ []]],
    .mk ⟨some .decls, .funcDecl, ⟨90, 120⟩, {}⟩ [
      .mk ⟨some .name, .ident, ⟨95, 96⟩, { name := "l", declares := some 9, type := some 8 }⟩ [],
      .mk ⟨some .typeExpr, .funcType, ⟨90, 105⟩, {}⟩ [
        .mk ⟨some .params, .fieldList, ⟨96, 98⟩, {}⟩ [],
        .mk ⟨some .results, .fieldList, ⟨99, 105⟩, {}⟩ [
          .mk ⟨some .list, .field, ⟨99, 105⟩, {}⟩ [
            .mk ⟨some .typeExpr, .arrayType, ⟨99, 105⟩, { type := some 9, isType := true }⟩ [
              .pointerType .elt 101 10 4 5]]]],
      .mk ⟨some .body, .blockStmt, ⟨106, 120⟩, {}⟩ [
        .mk ⟨some .list, .returnStmt, ⟨108, 118⟩, {}⟩ [
          .mk ⟨some .results, .ident, ⟨115, 118⟩, { name := "nil", uses := some 10, type := some 11 }⟩ []]]],
    .mk ⟨some .decls, .genDecl, ⟨122, 138⟩, {}⟩ [
      .mk ⟨some .specs, .valueSpec, ⟨126, 138⟩, {}⟩ [
        .mk ⟨some .names, .ident, ⟨126, 127⟩, { name := "V", declares := some 11, type := some 10 }⟩ [],
        .mk ⟨some .values, .indexExpr, ⟨130, 138⟩, { type := some 10 }⟩ [
          .mk ⟨some .x, .parenExpr, ⟨130, 135⟩, { type := some 9 }⟩ [
            .mk ⟨some .x, .callExpr, ⟨131, 134⟩, { type := some 9 }⟩ [
              .mk ⟨some .callee, .ident, ⟨131, 132⟩, { name := "l", uses := some 9, type := some 8 }⟩ []]],
          .mk ⟨some .index, .basicLit, ⟨136, 137⟩, { type := some 5 }⟩ []]]],
    .mk ⟨some .decls, .funcDecl, ⟨140, 161⟩, {}⟩ [
      .mk ⟨some .name, .ident, ⟨145, 146⟩, { name := "h", declares := some 12, type := some 12 }⟩ [],
      .mk ⟨some .typeExpr, .funcType, ⟨140, 148⟩, {}⟩ [
        .mk ⟨some .params, .fieldList, ⟨146, 148⟩, {}⟩ []],
      .mk ⟨some .body, .blockStmt, ⟨149, 161⟩, {}⟩ [
        .mk ⟨some .list, .exprStmt, ⟨151, 159⟩, {}⟩ [
          .mk ⟨some .x, .callExpr, ⟨151, 159⟩, { type := some 13 }⟩ [
            .mk ⟨some .callee, .selectorExpr, ⟨151, 154⟩, { type := some 14, selection := some ⟨.methodExpr, 3⟩ }⟩ [
              .mk ⟨some .x, .ident, ⟨151, 152⟩, { name := "T", uses := some 0, type := some 0, isType := true }⟩ [],
              .mk ⟨some .sel, .ident, ⟨153, 154⟩, { name := "m", uses := some 3, type := some 2 }⟩ []],
            .mk ⟨some .args, .callExpr, ⟨155, 158⟩, { type := some 15 }⟩ [
              .mk ⟨some .callee, .ident, ⟨155, 156⟩, { name := "g", uses := some 7, type := some 6 }⟩ []]]]]]]

def typing : Typing where
  types := #[⟨.named 0 1 false, none⟩, ⟨.struct [], none⟩, ⟨.signature ⟨some 1, [2], [], true⟩, none⟩,
    ⟨.slice 4, none⟩, ⟨.pointer 5, none⟩, ⟨.basic "int", none⟩, ⟨.signature ⟨none, [], [5, 6], false⟩, none⟩,
    ⟨.pointer 5, some 4⟩, ⟨.signature ⟨none, [], [8], false⟩, none⟩, ⟨.slice 10, some 3⟩, ⟨.pointer 5, some 4⟩,
    ⟨.basic "untyped nil", none⟩, ⟨.signature ⟨none, [], [], false⟩, none⟩, ⟨.tuple [], none⟩,
    ⟨.signature ⟨none, [13, 2], [], true⟩, none⟩, ⟨.tuple [5, 6], none⟩]
  objects := #[⟨"T", 17, some ⟨0, "p"⟩, .typeName 0⟩, ⟨"", 35, some ⟨0, "p"⟩, .var 0 .parameter none none⟩,
    ⟨"x", 40, some ⟨0, "p"⟩, .var 3 .parameter none (some "T.M0.PA0")⟩, ⟨"m", 38, some ⟨0, "p"⟩, .func 2 none⟩,
    ⟨"int", 0, none, .typeName 5⟩, ⟨"t", 65, some ⟨0, "p"⟩, .var 0 .result none none⟩,
    ⟨"y", 70, some ⟨0, "p"⟩, .var 7 .result none none⟩, ⟨"g", 60, some ⟨0, "p"⟩, .func 6 none⟩,
    ⟨"", 99, some ⟨0, "p"⟩, .var 9 .result none none⟩, ⟨"l", 95, some ⟨0, "p"⟩, .func 8 none⟩, ⟨"nil", 0, none, .nil⟩,
    ⟨"V", 126, some ⟨0, "p"⟩, .var 10 .var none (some "V")⟩, ⟨"h", 145, some ⟨0, "p"⟩, .func 12 none⟩,
    ⟨"_", 35, some ⟨0, "p"⟩, .var 0 .parameter none none⟩]
  scope := [⟨0, "T", "", 0⟩, ⟨0, "V", "", 11⟩, ⟨0, "g", "", 7⟩, ⟨0, "h", "", 12⟩, ⟨0, "l", "", 9⟩]
  impls := []

def files : List SourceFile :=
  [⟨"p.go", 0, 1, 161, [0, 10, 11, 27, 28, 53, 54, 88, 89, 120, 121, 138, 139, 161], false, [], some source, []⟩]

def packages : List Package := [⟨⟨0, "p"⟩, files, false⟩]

def classifier : Classifier := ⟨.ofPackages typing files packages false, .standard⟩

def resultL : Variable := ⟨8, "", 99, some ⟨0, "p"⟩, .result, none⟩

def varV : Variable := ⟨11, "V", 126, some ⟨0, "p"⟩, .var, some "V"⟩

theorem resolved : classifier.program.Resolved := by decide

/-- The value of `(l())[0]` is held by the result of `l`, which has no name. The match at the call discovers `V`. -/
theorem element_of_result : ∃ m ∈ classifier.program.index.occurrencesOf resultL,
    m.kind = .call ∧ varV ∈ (classifier.propagate m).1.vars ∧ (classifier.propagate m).2 = none := by
  have h : ∃ c ∈ packages[0].cursors, c.node.kind = .indexExpr ∧
      (∀ e ∈ c.preorder, e.node.kind = .indexExpr ∨ e.node.kind = .starExpr →
        ∀ d ∈ e.childrenAt .x, d.node.facts.type.any typing.isContainer = true) ∧
      producer typing c.node none = .ok (some 8) ∧
      varV ∈ (classifier.flowOf (classifier.dependents (Classifier.wholeSelector c)
        (typing.resultSlot c.node none)).found).vars ∧
      (classifier.dependents (Classifier.wholeSelector c) (typing.resultSlot c.node none)).failure = none := by
    decide +kernel
  obtain ⟨c, hc, -, hopens, hp, hV, hfailure⟩ := h
  have hv : typing.variableOf? 8 = some resultL := by decide +kernel
  have hholds : classifier.program.Holds c := ⟨packages[0], List.mem_cons_self, hc⟩
  obtain ⟨m, hm, ⟨bottom, -, hlocates⟩, ⟨d, hd, hbelow⟩, hdiscoveries, hfails⟩ := Classifier.converse_walks
    (Program.indexed_ofPackages ..) resolved hholds
    (opensDown_of_below fun e he => hopens e (Cursor.mem_preorder_iff.2 he)) hp hv
  have hcall : m.kind = .call := by
    cases hlocates with
    | result _ _ _ _ _ _ hk _ => exact hk
    | name _ ho hcursor _ =>
      have hnameless : ∀ package ∈ packages, ∀ e ∈ package.cursors, e.node.object? ≠ some 8 := by decide +kernel
      obtain rfl := Option.some.inj (hd.symm.trans hcursor)
      obtain ⟨package, hpackage, hmem⟩ := hholds.trans hbelow
      exact absurd ho (hnameless package hpackage d hmem)
  refine ⟨m, hm, hcall, ?_, ?_⟩
  · unfold Flow.vars
    rw [hdiscoveries]
    exact hV
  · rw [hfails]
    exact congrArg (Option.map _) hfailure

end Spreading

end NilFlow
