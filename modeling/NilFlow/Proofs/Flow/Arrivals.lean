import NilFlow.Proofs.Flow.Descent

/-!
# Where walks arrive

* `Operand`, `Opens`: the operands that an expression takes its value from, and whether all of them can be opened.
* `producer_arrives`: the walk from a match of the variable that holds a value comes to the expression.
* `resolve_arrives`: the walk from a match of the variable that is stored into comes to the target.
-/

namespace NilFlow

variable {T : Typing} {p : Program} {c d : Cursor} {slot : Option Nat} {o : ObjectId} {v : Variable}

/-! ## Operands -/

/-- An expression takes its value from another one: the operand, or the slice that is appended to. -/
inductive Operand (T : Typing) (c d : Cursor) : Prop where
  | operand (hk : c.node.kind ∈ [NodeKind.parenExpr, .sliceExpr, .unaryExpr, .indexExpr, .starExpr])
      (hd : d ∈ c.childrenAt .x)
  | appended (hk : c.node.kind = .callExpr) (hf : calleeOf T c.node = .builtin "append") (hd : d ∈ c.childrenAt .args)

/-- Whatever is indexed or dereferenced in an expression holds values. Only an operand whose type is a type parameter
may not be known to do so. -/
def Opens (T : Typing) (e : Cursor) : Prop :=
  ∀ c d, Relation.ReflTransGen (Operand T) e c → d ∈ c.childrenAt .x →
    c.node.kind = .indexExpr ∨ c.node.kind = .starExpr → d.node.facts.type.any T.isContainer = true

theorem Opens.operand (h : Opens T c) (hd : Operand T c d) : Opens T d := fun _ _ hclimb => h _ _ (hclimb.head hd)

theorem opens_ident (hk : c.node.kind = .ident) : Opens T c := by
  intro e d hpath hd hkind
  rcases Relation.ReflTransGen.cases_head hpath with rfl | ⟨e', hoperand, -⟩
  · simp [hk] at hkind
  · cases hoperand with
    | operand hk' _ => simp [hk] at hk'
    | appended hk' _ _ => simp [hk] at hk'

theorem Descends.operand_of {s t : Cursor × Option Nat} (h : Descends T s t) : Operand T s.1 t.1 := by
  cases h with
  | inner hk hd => exact .operand (by simp [hk]) (List.mem_of_head? hd)
  | operand hk hd => exact .operand (by grind) (List.mem_of_head? hd)
  | opened hk hd => exact .operand (by grind) (List.mem_of_head? hd)
  | appended hk _ hf hd => exact .appended hk hf (List.mem_of_head? hd)

theorem Opens.opensDown (h : Opens T c) : OpensDown T (c, slot) := by
  intro s t hway hstep hk
  exact h s.1 t.1 (hway.lift Prod.fst fun _ _ => Descends.operand_of) (hstep.mem_operand hk) hk

/-! ## Arrivals -/

/-- The walk from a match of a variable outside doc comments comes to an expression. -/
def Program.Reaches (p : Program) (v : Variable) (c : Cursor) (slot : Option Nat) : Prop :=
  ∃ m ∈ p.index.occurrencesOf v, m.inDocComment = false ∧ Arrives p.typing m c slot

namespace Program.Reaches

theorem lift {slot' : Option Nat} (h : p.Reaches v d slot) (hl : Lift p.typing (d, slot) (c, slot')) :
    p.Reaches v c slot' := by
  obtain ⟨m, hm, hdoc, harrives⟩ := h
  exact ⟨m, hm, hdoc, harrives.lift hl⟩

theorem of_ident (hi : p.Indexed) (hc : p.Holds c) (hedge : c.edge? ≠ some ⟨.selectorExpr, .sel⟩)
    (hk : c.node.kind = .ident) (ho : c.node.object? = some o) (hv : p.typing.variableOf? o = some v) :
    p.Reaches v c none := by
  obtain ⟨m, hm, hdoc, -, -, harrives⟩ := exists_match_of_ident hi hc hk ho hv
  rw [Classifier.wholeSelector, if_neg hedge] at harrives
  exact ⟨m, hm, hdoc, harrives⟩

theorem of_selector (hi : p.Indexed) (hw : p.Resolved) (hc : p.Holds c) (hk : c.node.kind = .selectorExpr)
    (hd : c.NamedBy d) (ho : d.node.object? = some o) (hv : p.typing.variableOf? o = some v) : p.Reaches v c none := by
  obtain ⟨m, hm, hdoc, -, harrives⟩ := exists_match_of_namedBy hi hw hc hd ho hv none
  rw [wholeSelector_of_ne_ident hw hc (by simp [hk])] at harrives
  exact ⟨m, hm, hdoc, harrives⟩

end Program.Reaches

/-! ### Values -/

/-- The walk from a match of a variable comes to an expression with the number of its value: a call of a function has
several, any other expression only one. -/
def Program.ReachesValue (p : Program) (v : Variable) (c : Cursor) (n : Nat) : Prop :=
  ∃ slot, p.Reaches v c slot ∧ slot.getD 0 = if p.typing.single c.node.unparen then 0 else n

theorem producer_unparen (c : Cursor) : producer T c.node.unparen slot = producer T c.node slot := by
  induction c using Cursor.induction_children with
  | h c ih =>
    by_cases hk : c.node.kind = .parenExpr
    · cases hx : c.node.child? .x with
      | none => rw [unparen_of_none hx]
      | some n =>
        obtain ⟨d, hd, rfl⟩ := Cursor.exists_child hx
        rw [unparen_paren hk hx, ih d (Cursor.mem_childrenAt.1 hd).1, producer_eq T c.node, hk]
        dsimp only
        rw [hx]
        rfl
    · rw [unparen_of_ne hk]

/-- A call that is searched for a variable calls a declared function, or a builtin one. -/
theorem getD_resultSlot (h : producer T c.node slot = .ok (some o)) :
    (T.resultSlot c.node slot).getD 0 = if T.single c.node.unparen then 0 else slot.getD 0 := by
  rw [← producer_unparen c] at h
  unfold Typing.resultSlot Typing.called? Typing.single
  by_cases hk : c.node.unparen.kind = .callExpr
  · cases hf : calleeOf T c.node.unparen with
    | builtin name => simp [hk]
    | func fn => simp [hk]
    | other =>
      rw [producer_eq, hk] at h
      dsimp only at h
      rw [hf] at h
      split at h
      · split at h <;> cases h
      · cases h
  · simp [hk]

/-- The variable that holds a value is reached at the expression. -/
theorem producer_arrives (hi : p.Indexed) (hw : p.Resolved) (hv : p.typing.variableOf? o = some v) (c : Cursor)
    {slot : Option Nat} (hc : p.Holds c) (hedge : c.edge? ≠ some ⟨.selectorExpr, .sel⟩) (hopens : Opens p.typing c)
    (h : producer p.typing c.node slot = .ok (some o)) : p.ReachesValue v c (slot.getD 0) := by
  obtain ⟨m, hm, hdoc, -, harrives⟩ := exists_arrival hi hw hv c hc hopens.opensDown h
  rw [Classifier.wholeSelector, if_neg hedge] at harrives
  exact ⟨_, ⟨m, hm, hdoc, harrives⟩, getD_resultSlot h⟩

/-! ### Targets -/

/-- The variable that is stored into is reached at the target. -/
theorem resolve_arrives (hi : p.Indexed) (hw : p.Resolved) (hv : p.typing.variableOf? o = some v) (c : Cursor) :
    p.Holds c → c.edge? ≠ some ⟨.selectorExpr, .sel⟩ → Opens p.typing c →
      resolve p.typing c.node = .ok (some o) → ∃ slot, p.Reaches v c slot := by
  induction c using Cursor.induction_children with
  | h c ih =>
    intro hc hedge hopens h
    have hoperand (hk : c.node.kind ∈ [NodeKind.parenExpr, .indexExpr, .starExpr])
        (h : (c.node.child? .x).elim (.ok none) (resolve p.typing) = .ok (some o)) : ∃ slot, p.Reaches v c slot := by
      obtain ⟨d, hd, h⟩ := exists_child_of_elim h
      have hmem := List.mem_of_head? hd
      have hne : d.edge? ≠ some ⟨.selectorExpr, .sel⟩ := by simp [Cursor.edge?_of_mem_childrenAt hmem]
      obtain ⟨s, hr⟩ := ih d (Cursor.mem_childrenAt.1 hmem).1 (hc.child hmem) hne
        (hopens.operand (.operand (by grind) hmem)) h
      exact ⟨_, hr.lift (lift_of_operand hmem (by grind) (hopens c d .refl hmem))⟩
    cases hk : c.node.kind with
    | ident => exact ⟨none, .of_ident hi hc hedge hk (of_resolve_ident hk h).2.1 hv⟩
    | selectorExpr =>
      rw [resolve_eq, hk] at h
      dsimp only at h
      split at h
      · rename_i s hs
        unfold resolveSelection at h
        split at h
        · rename_i hfield
          cases h
          simp only [Bool.and_eq_true, decide_eq_true_eq] at hfield
          obtain ⟨d, hd, ho⟩ := namedBy_of_selection hw hc hk hs hfield.1
          exact ⟨none, .of_selector hi hw hc hk hd ho hv⟩
        · cases h
      · split at h
        · obtain ⟨d, hd, h⟩ := exists_child_of_elim h
          have hnamed := namedBy_of_qualified hw hc hk hd
          exact ⟨none, .of_selector hi hw hc hk hnamed (of_resolve_ident hnamed.1 h).2.1 hv⟩
        · cases h
    | parenExpr =>
      rw [resolve_eq, hk] at h
      exact hoperand (by simp [hk]) h
    | indexExpr =>
      rw [resolve_eq, hk] at h
      exact hoperand (by simp [hk]) h
    | starExpr =>
      rw [resolve_eq, hk] at h
      exact hoperand (by simp [hk]) h
    | _ =>
      rw [resolve_eq, hk] at h
      cases h

end NilFlow
