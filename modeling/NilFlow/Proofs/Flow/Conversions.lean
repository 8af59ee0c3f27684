import Mathlib.Logic.Relation
import NilFlow.Proofs.Flow.Climbing
import NilFlow.Proofs.Flow.Seeding
import NilFlow.Proofs.Harvest.Verdict

/-!
# Converted nil literals

* `Carries`: the value of an expression goes into the one around it through parentheses, array, slice and map literals,
  `append` and conversions.
* `OutermostConversion`: the last conversion that the value of a literal reaches that way.
* `Classifier.dependents_of_reaches`: the walk from an expression whose value reaches a conversion finds nothing.
* `around_of_reaches`: the call looked up around the literal lies on the way to that conversion, or is that conversion.
* `Classifier.rejects_iff`: so a converted literal rules out what the outermost conversion is stored into exactly when
  this conversion is directly around it.
* `NestedConversion`: a conversion of a conversion, which is not rejected.
-/

namespace NilFlow

variable {T : Typing} {c d e conv outer : Cursor}

/-! ## The way of a value -/

/-- An expression is the operand of a conversion. -/
structure OperandOf (conv d : Cursor) : Prop where
  kind : conv.node.kind = .callExpr
  conversion : isConversion conv.node = true
  mem : d ∈ conv.childrenAt .args

/-- The value of an expression goes into the one around it: in parentheses, as an element of an array, a slice or a map,
appended to a slice, and converted. -/
inductive Carries (T : Typing) : Cursor → Cursor → Prop where
  | paren {c d : Cursor} (hk : c.node.kind = .parenExpr) (hd : d ∈ c.childrenAt .x) : Carries T d c
  | element {c d : Cursor} (hk : c.node.kind = .compositeLit) (hfields : structFields? T c.node = none)
      (hd : d ∈ c.childrenAt .elts) : Carries T d c
  | keyed {c kv d : Cursor} (hk : c.node.kind = .compositeLit) (hfields : structFields? T c.node = none)
      (hkv : kv ∈ c.childrenAt .elts) (hkind : kv.node.kind = .keyValueExpr) (hd : d ∈ kv.childrenAt .value) :
      Carries T d c
  | appended {c d : Cursor} (hk : c.node.kind = .callExpr) (hconv : isConversion c.node = false)
      (hf : calleeOf T c.node = .builtin "append") (hd : d ∈ c.childrenAt .args) : Carries T d c
  | converted {c d : Cursor} (h : OperandOf c d) : Carries T d c

/-- The value of an expression reaches a conversion to a type that is no interface. -/
def ReachesConversion (T : Typing) (c conv : Cursor) : Prop :=
  conv.node.facts.type.any T.isInterface = false ∧ ∃ d, Relation.ReflTransGen (Carries T) c d ∧ OperandOf conv d

/-- The value of an expression reaches a conversion, and that of the conversion reaches no other. -/
structure OutermostConversion (T : Typing) (c outer : Cursor) : Prop where
  reaches : ReachesConversion T c outer
  last : ∀ conv, ¬ ReachesConversion T outer conv

theorem OperandOf.contextOf (h : OperandOf conv d) : contextOf T d = .conversion := by
  rw [contextOf_child h.mem, h.kind]
  exact if_pos h.conversion

theorem Carries.walked (h : Carries T d c) : c.node.kind ∈ walkedKinds := by
  cases h with
  | paren hk _ => simp [hk, walkedKinds]
  | element hk _ _ => simp [hk, walkedKinds]
  | keyed hk _ _ _ _ => simp [hk, walkedKinds]
  | appended hk _ _ _ => simp [hk, walkedKinds]
  | converted h => simp [h.kind, walkedKinds]

/-- Unless it is converted, a value is followed to where it goes. -/
theorem Carries.lift_or_operand (h : Carries T d c) : Lift T (d, none) (c, none) ∨ OperandOf c d := by
  cases h with
  | paren hk hd =>
    have hctx : contextOf T d = .transparent := by
      rw [contextOf_child hd, hk]
      rfl
    have hlift : Lift T (d, none) (c, if c.node.kind = .parenExpr then none else none) :=
      .operand (Cursor.mem_childrenAt.1 hd).1 (Or.inl hctx)
    rw [ite_self] at hlift
    exact Or.inl hlift
  | element hk hfields hd =>
    have hctx : contextOf T d = .element := by
      rw [contextOf_child hd, hk]
      rfl
    exact Or.inl (.element (Cursor.mem_childrenAt.1 hd).1 hctx hfields)
  | keyed hk hfields hkv hkind hd =>
    have hctx : contextOf T d = .keyedValue := by
      rw [contextOf_child hd, hkind]
      rfl
    exact Or.inl (.keyed (Cursor.mem_childrenAt.1 hkv).1 (Cursor.mem_childrenAt.1 hd).1 hctx hk hfields)
  | appended hk hconv hf hd =>
    have hctx : contextOf T d = .argument := by
      rw [contextOf_child hd, hk]
      exact if_neg (by simp [hconv])
    exact Or.inl (.appended (Cursor.mem_childrenAt.1 hd).1 hctx hf)
  | converted h => exact Or.inr h

theorem Carries.operandOf (h : Carries T d c) (hk : c.node.kind = .callExpr) (hconv : isConversion c.node = true) :
    OperandOf c d := by
  cases h with
  | paren hk' _ => simp [hk'] at hk
  | element hk' _ _ => simp [hk'] at hk
  | keyed hk' _ _ _ _ => simp [hk'] at hk
  | appended _ hconv' _ _ => simp [hconv'] at hconv
  | converted h => exact h

theorem Lift.not_initializer {s t : Cursor × Option Nat} (h : Lift T s t) : contextOf T s.1 ≠ .specValue := by
  cases h with
  | operand _ hctx => rcases hctx with hctx | hctx <;> simp [hctx]
  | appended _ hctx _ => simp [hctx]
  | element _ hctx _ => simp [hctx]
  | keyed _ _ hctx _ _ => simp [hctx]

/-- A conversion that initializes a variable is the last one. -/
theorem OutermostConversion.of_initializer (hway : Relation.ReflTransGen (Carries T) c d) (hd : OperandOf outer d)
    (hinterface : outer.node.facts.type.any T.isInterface = false) (hctx : contextOf T outer = .specValue) :
    OutermostConversion T c outer := by
  refine ⟨⟨hinterface, d, hway, hd⟩, ?_⟩
  have hoperand : ∀ e, ¬ OperandOf e outer := by
    intro e he
    have hconv : contextOf T outer = .conversion := he.contextOf
    simp [hctx] at hconv
  rintro conv ⟨-, e, hpast, he⟩
  rcases hpast.cases_head with rfl | ⟨f, hstep, -⟩
  · exact hoperand conv he
  · rcases hstep.lift_or_operand with hlift | he
    · exact hlift.not_initializer hctx
    · exact hoperand f he

/-! ## The call around a literal -/

theorem conversionAround?_child {f : FieldName} (h : d ∈ c.childrenAt f) : conversionAround? d =
    if c.node.kind = .parenExpr ∧ f = .x then conversionAround? c
    else if c.node.kind = .callExpr ∧ f = .args then some c else none := by
  obtain ⟨hd, hf⟩ := Cursor.mem_childrenAt.1 h
  obtain ⟨i, -, ha⟩ := Cursor.mem_children_iff.1 hd
  unfold conversionAround?
  rw [ha, conversionAbove, hf]
  split
  · rename_i hk hx
    cases hx
    rw [if_pos ⟨hk, rfl⟩]
  · rename_i hk hargs
    cases hargs
    rw [if_neg (by simp), if_pos ⟨hk, rfl⟩]
  · rename_i hparen hcall
    rw [if_neg fun h => hparen h.1 (congrArg some h.2), if_neg fun h => hcall h.1 (congrArg some h.2)]

theorem OperandOf.around (h : OperandOf conv d) : conversionAround? d = some conv := by
  rw [conversionAround?_child h.mem, if_neg (by simp), if_pos ⟨h.kind, rfl⟩]

/-- The call around an expression is that around its parentheses, or the one that its value goes into. A literal around
the expression hides it. -/
theorem Carries.around (h : Carries T d c) : (c.node.kind = .parenExpr ∧ conversionAround? d = conversionAround? c) ∨
    conversionAround? d = none ∨ conversionAround? d = some c := by
  cases h with
  | paren hk hd =>
    rw [conversionAround?_child hd, if_pos ⟨hk, rfl⟩]
    exact Or.inl ⟨hk, rfl⟩
  | element hk _ hd =>
    rw [conversionAround?_child hd, if_neg (by simp [hk]), if_neg (by simp [hk])]
    exact Or.inr (Or.inl rfl)
  | keyed _ _ _ hkind hd =>
    rw [conversionAround?_child hd, if_neg (by simp [hkind]), if_neg (by simp [hkind])]
    exact Or.inr (Or.inl rfl)
  | appended hk _ _ hd =>
    rw [conversionAround?_child hd, if_neg (by simp), if_pos ⟨hk, rfl⟩]
    exact Or.inr (Or.inr rfl)
  | converted h => exact Or.inr (Or.inr h.around)

/-- The call around a literal is the conversion that its value reaches, or lies on the way there. -/
theorem around_of_reaches (hway : Relation.ReflTransGen (Carries T) c d) (hd : OperandOf outer d)
    (h : conversionAround? c = some conv) :
    conv = outer ∨ conv.node.kind ∈ walkedKinds ∧ Relation.ReflTransGen (Carries T) conv d := by
  induction hway using Relation.ReflTransGen.head_induction_on with
  | refl =>
    rw [hd.around] at h
    exact Or.inl (Option.some.inj h).symm
  | head hstep hrest ih =>
    rcases hstep.around with ⟨-, haround⟩ | haround | haround
    · exact ih (haround ▸ h)
    · rw [haround] at h
      cases h
    · rw [haround] at h
      cases h
      exact Or.inr ⟨hstep.walked, hrest⟩

namespace Classifier

variable {k : Classifier}

/-! ## The walk to a conversion -/

theorem dependents_operand (h : OperandOf conv d) (hd : d.node.kind ∈ walkedKinds) : k.dependents d none =
    if conv.node.facts.type.any k.program.typing.isInterface && !isNilLiteral k.program.typing d.node then .nothing
    else .fail (conversionFailure conv.node) := by
  rw [dependents_child (Cursor.mem_childrenAt.1 h.mem).1 (isExpr_of_walked hd), h.contextOf]

/-- The walk from an expression whose value reaches a conversion ends at the first one. -/
theorem dependents_of_reaches (hway : Relation.ReflTransGen (Carries k.program.typing) c d) (hd : OperandOf outer d)
    (hc : c.node.kind ∈ walkedKinds) : k.dependents c none = .nothing ∨
      ∃ conv : Cursor, k.dependents c none = .fail (conversionFailure conv.node) := by
  have hends : ∀ {conv d : Cursor}, OperandOf conv d → d.node.kind ∈ walkedKinds → k.dependents d none = .nothing ∨
      ∃ conv : Cursor, k.dependents d none = .fail (conversionFailure conv.node) := by
    intro conv d h hd
    rw [dependents_operand h hd]
    split
    · exact Or.inl rfl
    · exact Or.inr ⟨conv, rfl⟩
  induction hway using Relation.ReflTransGen.head_induction_on with
  | refl => exact hends hd hc
  | head hstep _ ih =>
    rcases hstep.lift_or_operand with hlift | hoperand
    · rw [dependents_lift hlift hc]
      exact ih hstep.walked
    · exact hends hoperand hc

/-- The walk from a literal directly in a conversion fails there. -/
theorem dependents_of_around (houter : outer.node.facts.type.any k.program.typing.isInterface = false)
    (hway : Relation.ReflTransGen (Carries k.program.typing) c d) (hd : OperandOf outer d)
    (hc : c.node.kind ∈ walkedKinds) (h : conversionAround? c = some outer) :
    k.dependents c none = .fail (conversionFailure outer.node) := by
  have hends : ∀ {d : Cursor}, OperandOf outer d → d.node.kind ∈ walkedKinds →
      k.dependents d none = .fail (conversionFailure outer.node) := by
    intro d h hd
    rw [dependents_operand h hd, houter]
    rfl
  induction hway using Relation.ReflTransGen.head_induction_on with
  | refl => exact hends hd hc
  | head hstep _ ih =>
    rcases hstep.around with ⟨hk, haround⟩ | haround | haround
    · have hlift := hstep.lift_or_operand.resolve_right fun ho => by simp [ho.kind] at hk
      rw [dependents_lift hlift hc]
      exact ih hstep.walked (haround ▸ h)
    · rw [haround] at h
      cases h
    · rw [haround] at h
      cases h
      exact hends (hstep.operandOf hd.kind hd.conversion) hc

/-! ## What a converted literal adds -/

theorem vars_ne_nil_of_discovery? {f : Finding} {found : Discovery Variable} (h : k.discovery? f = some found) :
    found.vars ≠ [] := by
  unfold discovery? at h
  split at h
  · cases h
  · rename_i vs hne
    cases h
    simpa [Discovery.vars] using hne

theorem discoveries_flowOf_eq_nil {fs : List Finding} :
    (k.flowOf fs).discoveries = [] ↔ (k.flowOf fs).vars = [] := by
  refine ⟨fun h => by rw [Flow.vars, h]; rfl, fun h => List.eq_nil_iff_forall_not_mem.2 fun found hmem => ?_⟩
  obtain ⟨f, -, hf⟩ := mem_discoveries_flowOf.1 hmem
  exact vars_ne_nil_of_discovery? hf (List.flatMap_eq_nil_iff.1 h found hmem)

/-- The variables that the value of a conversion is stored into. -/
def storedInto (k : Classifier) (conv : Cursor) : List Variable := (k.flowOf (k.dependents conv none).found).vars

/-- A converted literal is rejected. Stored into variables, it adds a failure and rules all of them out. Stored nowhere,
it adds nothing. -/
def Rejects (k : Classifier) (c outer : Cursor) : Prop :=
  ∃ t, k.seedAt .empty c = .ok t ∧
    (k.storedInto outer ≠ [] →
      (∃ f ∈ t.failures, f.kind = .disallowed) ∧ ∀ x ∈ k.storedInto outer, x ∈ t.ruledOut) ∧
    (k.storedInto outer = [] → t = .empty)

theorem seedAt_nil (hc : c.node.kind = .ident) (hn : isNilLiteral k.program.typing c.node = true) (s : Seeds) :
    k.seedAt s c = k.seedNil s c := by
  unfold seedAt
  rw [hc]
  exact if_pos hn

theorem seedNil_of_fail {first : Node} (hfails : k.dependents c none = .fail (conversionFailure first)) :
    k.seedNil .empty c =
      match conversionAround? c with
      | none => .ok (Seeds.empty.addFailure ((conversionFailure first).placedAt c.node.span) [])
      | some conv =>
        match (k.dependents conv none).failure.filter Failure.fatal with
        | some g => .error g
        | none =>
          if (k.flowOf (k.dependents conv none).found).discoveries.isEmpty then .ok .empty
          else .ok (Seeds.empty.addFailure ((conversionFailure first).placedAt c.node.span) (k.storedInto conv)) := by
  have hcalm : (conversionFailure first).fatal = false := rfl
  have hkind : (conversionFailure first).kind = .disallowed := rfl
  unfold seedNil
  rw [hfails]
  dsimp only [Findings.fail]
  rw [hcalm, hkind, if_neg Bool.false_ne_true, if_pos rfl]
  rfl

/-- A literal directly in the conversion is rejected, unless following the conversion is a fatal failure. -/
theorem rejects_of_around (hn : k.seedAt .empty c = k.seedNil .empty c)
    (hfails : k.dependents c none = .fail (conversionFailure outer.node)) (h : conversionAround? c = some outer) :
    k.Rejects c outer ↔ ∀ f, (k.dependents outer none).failure = some f → f.fatal = false := by
  unfold Rejects
  rw [hn, seedNil_of_fail hfails, h]
  dsimp only
  cases hfatal : (k.dependents outer none).failure.filter Failure.fatal with
  | some g =>
    obtain ⟨hg, hgf⟩ := Option.filter_eq_some_iff.1 hfatal
    refine iff_of_false ?_ fun hall => ?_
    · rintro ⟨t, ht, -⟩
      cases ht
    · rw [hall g hg] at hgf
      cases hgf
  | none =>
    refine iff_of_true ?_ fun f hf => ?_
    · dsimp only
      split
      · rename_i hempty
        have hnone : k.storedInto outer = [] := discoveries_flowOf_eq_nil.1 (List.isEmpty_iff.1 hempty)
        exact ⟨_, rfl, fun hne => absurd hnone hne, fun _ => rfl⟩
      · rename_i hempty
        refine ⟨_, rfl, fun _ => ⟨⟨_, List.mem_cons_self, rfl⟩, fun x hx => ?_⟩, fun hnone => ?_⟩
        · exact List.mem_append_left _ (List.mem_append_right _ hx)
        · exact absurd (List.isEmpty_iff.2 (discoveries_flowOf_eq_nil.2 hnone)) hempty
    · rw [hf] at hfatal
      simpa using hfatal

/-- A literal that reaches the conversion through others, or through literals and calls, rules nothing out. It adds a
failure only when nothing but literals is around it. -/
theorem seedNil_of_apart (hway : Relation.ReflTransGen (Carries k.program.typing) c d) (hd : OperandOf outer d)
    (hc : c.node.kind ∈ walkedKinds) (h : conversionAround? c ≠ some outer) :
    ∃ t, k.seedNil .empty c = .ok t ∧ t.ruledOut = [] ∧
      (t = .empty ↔ (conversionAround? c = none → (k.dependents c none).failure = none)) := by
  rcases dependents_of_reaches hway hd hc with hfound | ⟨first, hfails⟩
  · refine ⟨.empty, ?_, rfl, iff_of_true rfl fun _ => by rw [hfound]; rfl⟩
    unfold seedNil
    rw [hfound]
    rfl
  · rw [seedNil_of_fail hfails]
    cases haround : conversionAround? c with
    | none =>
      refine ⟨_, rfl, rfl, iff_of_false (fun ht => ?_) fun hnone => ?_⟩
      · exact absurd (congrArg Seeds.failures ht) (by simp [Seeds.addFailure, Seeds.empty])
      · rw [hfails] at hnone
        cases hnone rfl
    | some conv =>
      refine ⟨.empty, ?_, rfl, iff_of_true rfl fun hnone => by cases hnone⟩
      -- the call around the literal is not the last on the way, so its walk finds nothing either
      obtain ⟨hwalked, hrest⟩ := (around_of_reaches hway hd haround).resolve_left fun hco =>
        h (haround.trans (congrArg some hco))
      rcases dependents_of_reaches hrest hd hwalked with hconv | ⟨second, hconv⟩
      · dsimp only
        rw [hconv]
        rfl
      · dsimp only
        rw [hconv]
        rfl

/-- A converted nil literal is rejected exactly when the outermost conversion is directly around it, parentheses aside,
and can be followed, or else is stored nowhere and not even reported. What a literal adds stands among the seeds of
every root that it lies in, unless the scan is stopped. -/
theorem rejects_iff (hc : c.node.kind = .ident) (hn : isNilLiteral k.program.typing c.node = true)
    (ho : OutermostConversion k.program.typing c outer) :
    (k.Rejects c outer ↔
      (conversionAround? c = some outer ∧ ∀ f, (k.dependents outer none).failure = some f → f.fatal = false) ∨
      (conversionAround? c ≠ some outer ∧ k.storedInto outer = [] ∧
        (conversionAround? c = none → (k.dependents c none).failure = none))) ∧
    ∀ root : Root, c ∈ root.nodes.flatMap (·.cursor.preorder) → (k.seed root).2 = none →
      ∃ s t s' : Seeds, k.seedAt .empty c = .ok t ∧ (k.seed root).1 = (s.append t).append s' := by
  obtain ⟨hinterface, d, hway, hd⟩ := ho.reaches
  have hwalked : c.node.kind ∈ walkedKinds := by simp [hc, walkedKinds]
  refine ⟨?_, fun root hroot hs => exists_append_of_mem hroot hs⟩
  by_cases h : conversionAround? c = some outer
  · rw [rejects_of_around (seedAt_nil hc hn _) (dependents_of_around hinterface hway hd hwalked h) h]
    simp [h]
  · obtain ⟨t, ht, hruledOut, hempty⟩ := seedNil_of_apart hway hd hwalked h
    rw [← hempty]
    unfold Rejects
    rw [seedAt_nil hc hn]
    constructor
    · rintro ⟨u, hu, hstored, hnowhere⟩
      obtain rfl : u = t := Except.ok.inj (hu.symm.trans ht)
      refine Or.inr ⟨h, ?_⟩
      by_cases hv : k.storedInto outer = []
      · exact ⟨hv, hnowhere hv⟩
      · obtain ⟨x, hx⟩ := List.exists_mem_of_ne_nil _ hv
        have hout := (hstored hv).2 x hx
        rw [hruledOut] at hout
        cases hout
    · rintro (⟨haround, -⟩ | ⟨-, hv, rfl⟩)
      · exact absurd haround h
      · exact ⟨_, ht, fun hne => absurd hv hne, fun _ => rfl⟩

end Classifier

/-! ## Conversions that initialize a variable -/

namespace Converted

/-- A conversion directly around the literal is rejected. -/
theorem conversion_rejected : ∃ c outer : Cursor, c.node.kind = .ident ∧ isNilLiteral typing c.node = true ∧
    OutermostConversion typing c outer ∧ (classifier .error).Rejects c outer ∧
    (classifier .error).storedInto outer = [⟨0, "A", 16, some ⟨0, "p"⟩, .var, some "A"⟩] := by
  have h : ∃ outer ∈ root.nodes.flatMap (·.cursor.preorder),
      (outer.node.kind = .callExpr ∧ isConversion outer.node = true ∧
        outer.node.facts.type.any typing.isInterface = false ∧ contextOf typing outer = .specValue) ∧
      (((classifier .error).dependents outer none).failure = none ∧
        (classifier .error).storedInto outer = [⟨0, "A", 16, some ⟨0, "p"⟩, .var, some "A"⟩]) ∧
      ∃ c ∈ outer.childrenAt .args, c.node.kind = .ident ∧ isNilLiteral typing c.node = true := by decide +kernel
  obtain ⟨outer, -, ⟨hkind, hconv, htype, hctx⟩, ⟨hcalm, hstored⟩, c, hc, hident, hnil⟩ := h
  have hoperand : OperandOf outer c := ⟨hkind, hconv, hc⟩
  have hout := OutermostConversion.of_initializer .refl hoperand htype hctx
  refine ⟨c, outer, hident, hnil, hout, ?_, hstored⟩
  refine ((Classifier.rejects_iff (k := classifier .error) hident hnil hout).1).2 (Or.inl ⟨hoperand.around, ?_⟩)
  intro f hf
  rw [hcalm] at hf
  cases hf

end Converted

namespace NestedConversion

/-- The syntax of `var A = (*int)((*int)(nil))`. -/
def source : Node :=
  .mk ⟨none, .file, ⟨1, 39⟩, {}⟩ [
    .mk ⟨some .name, .ident, ⟨9, 10⟩, { name := "p" }⟩ [],
    .mk ⟨some .decls, .genDecl, ⟨12, 39⟩, {}⟩ [
      .mk ⟨some .specs, .valueSpec, ⟨16, 39⟩, {}⟩ [
        .mk ⟨some .names, .ident, ⟨16, 17⟩, { name := "A", declares := some 0, type := some 0 }⟩ [],
        .pointerConversion .values ⟨20, 39⟩ 0 1 1 (.pointerConversion .args ⟨27, 38⟩ 2 1 1
          (.mk ⟨some .args, .ident, ⟨34, 37⟩, { name := "nil", type := some 3, uses := some 2 }⟩ []))]]]

/-- The types of the two conversions are apart, and identical. -/
def typing : Typing where
  types := #[⟨.pointer 1, none⟩, ⟨.basic "int", none⟩, ⟨.pointer 1, some 0⟩, ⟨.basic "untyped nil", none⟩]
  objects := #[⟨"A", 16, some ⟨0, "p"⟩, .var 0 .var none (some "A")⟩, ⟨"int", 0, none, .typeName 1⟩,
    ⟨"nil", 0, none, .nil⟩]
  scope := [⟨0, "A", "", 0⟩]
  impls := []

def files : List SourceFile := [⟨"p", 0, 1, 39, [0, 10, 11, 39], false, [], some source, []⟩]

def packages : List Package := [⟨⟨0, "p"⟩, files, false⟩]

def classifier : Classifier := ⟨.ofPackages typing files packages false, Settings.standard⟩

def root : Root := Program.wholeRoot (.ofPackages typing files packages false) packages

/-- The outer conversion is stored in the variable, and the literal adds nothing. -/
theorem outer_conversion_not_rejected : ¬ ∀ (k : Classifier) (root : Root) (c outer : Cursor),
    c ∈ root.nodes.flatMap (·.cursor.preorder) → c.node.kind = .ident →
      isNilLiteral k.program.typing c.node = true → OutermostConversion k.program.typing c outer →
        k.Rejects c outer := by
  have h : ∃ outer ∈ root.nodes.flatMap (·.cursor.preorder),
      (outer.node.kind = .callExpr ∧ isConversion outer.node = true ∧
        outer.node.facts.type.any typing.isInterface = false ∧ contextOf typing outer = .specValue) ∧
      classifier.storedInto outer ≠ [] ∧
      ∃ inner ∈ outer.childrenAt .args, (inner.node.kind = .callExpr ∧ isConversion inner.node = true) ∧
        ∃ c ∈ inner.childrenAt .args, (c.node.kind = .ident ∧ isNilLiteral typing c.node = true) ∧
          classifier.seedAt .empty c = .ok .empty := by decide +kernel
  obtain ⟨outer, houter, ⟨hkind, hconv, htype, hctx⟩, hstored, inner, hinner, ⟨hinnerKind, hinnerConv⟩, c, hc,
    ⟨hident, hnil⟩, hseed⟩ := h
  have hout : OutermostConversion typing c outer :=
    .of_initializer (.single (.converted ⟨hinnerKind, hinnerConv, hc⟩)) ⟨hkind, hconv, hinner⟩ htype hctx
  have hroot : c ∈ root.nodes.flatMap (·.cursor.preorder) := by
    obtain ⟨n, hn, hbelow⟩ := List.mem_flatMap.1 houter
    have hin : n.cursor.Below inner := .child (Cursor.mem_preorder_iff.1 hbelow) (Cursor.mem_childrenAt.1 hinner).1
    exact List.mem_flatMap.2 ⟨n, hn, Cursor.mem_preorder_iff.2 (.child hin (Cursor.mem_childrenAt.1 hc).1)⟩
  intro hall
  obtain ⟨t, ht, hrejected, -⟩ := hall classifier root c outer hroot hident hnil hout
  obtain rfl : t = .empty := Except.ok.inj (ht.symm.trans hseed)
  obtain ⟨⟨f, hf, -⟩, -⟩ := hrejected hstored
  cases hf

end NestedConversion

end NilFlow
