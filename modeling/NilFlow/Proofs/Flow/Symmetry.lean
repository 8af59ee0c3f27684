import NilFlow.Proofs.Flow.Arrivals
import NilFlow.Proofs.Harvest.Occurrences
import NilFlow.Proofs.Harvest.Order

/-!
# Stores are followed in both directions

* `Stores.number_eq_zero`: only the results of a call have several values to store.
* `Stores.found_value`: from a stored value, the variable that it is stored into is found.
* `Stores.exists_meets`: a match of the variable that is stored into is followed through the store.
* `Classifier.stores_symmetric`: each of the two variables discovers the other, and so the same variables are reached
  from both.
-/

namespace NilFlow

variable {k : Classifier} {p : Program} {form : StoreForm} {value : Cursor} {target : Option Cursor} {n : Nat}
  {o y : ObjectId} {dst : Option TypeId} {slot : Option Nat} {X Y : Variable}

/-! ## The expressions of a store -/

theorem Stores.exists_parent (h : Stores p form value n target o dst) :
    ∃ q f, p.Holds q ∧ q.node.kind ≠ .selectorExpr ∧ value ∈ q.childrenAt f := by
  cases h with
  | assignment hq hk _ hp _ => exact ⟨_, _, hq, by simp [hk], hp.mem_values⟩
  | declaration hq hk hp _ => exact ⟨_, _, hq, by simp [hk], hp.mem_values⟩
  | returned hq hk _ _ _ hp => exact ⟨_, _, hq, by simp [hk], hp.mem_values⟩
  | argument hq hk _ _ _ hp _ _ _ => exact ⟨_, _, hq, by simp [hk], hp.mem⟩
  | keyed hq hk _ hkv hkind _ hvalue _ => exact ⟨_, .value, hq.child hkv, by simp [hkind], by simp [hvalue]⟩
  | positional hq hk _ hvalue _ _ => exact ⟨_, _, hq, by simp [hk], List.mem_of_getElem? hvalue⟩
  | sent hq hk _ hvalue _ _ _ => exact ⟨_, .value, hq, by simp [hk], by simp [hvalue]⟩

/-- The target of a store is held by a node other than a selector, and stands for what is stored into. -/
theorem Stores.exists_target_parent {t : Cursor} (h : Stores p form value n (some t) o dst) :
    resolve p.typing t.node = .ok (some o) ∧ ∃ q f, p.Holds q ∧ q.node.kind ≠ .selectorExpr ∧ t ∈ q.childrenAt f := by
  cases h with
  | assignment hq hk _ hp ho => exact ⟨ho, _, _, hq, by simp [hk], hp.mem_receivers⟩
  | declaration hq hk hp ho => exact ⟨ho, _, _, hq, by simp [hk], hp.mem_receivers⟩
  | keyed hq hk _ hkv hkind hkey _ ho => exact ⟨ho, _, .key, hq.child hkv, by simp [hkind], by simp [hkey]⟩
  | sent hq hk hchan _ ho _ _ => exact ⟨ho, _, .chan, hq, by simp [hk], by simp [hchan]⟩

/-! ## The number of the value -/

/-- A component of a single value for several receivers is one of a tuple. -/
theorem Paired.tuple {α : Type} {receivers : List α} {r : α} {q : Cursor} {f : FieldName}
    (hm : p.typing.Matches receivers.length (q.node.childrenAt f))
    (h : Paired receivers (q.childrenAt f) r value n) (hn : n ≠ 0) : (p.typing.tupleOf? value.node).isSome = true := by
  cases h with
  | each => exact absurd rfl hn
  | component hl hv hr =>
    rcases hm with ⟨hlen, -⟩ | ⟨-, htuple⟩
    · exact absurd ((length_childrenAt q f).symm.trans hlen) hl
    · obtain ⟨vars, hvars, -⟩ := htuple value.node (Cursor.node_mem_of_mem_childrenAt (by simp [hv]))
      exact Option.isSome_of_mem hvars

theorem isEmpty_childrenAt_of_mem {q : Cursor} {f : FieldName} (h : value ∈ q.childrenAt f) :
    (q.node.childrenAt f).isEmpty = false :=
  List.isEmpty_eq_false_iff_exists_mem.2 ⟨value.node, Cursor.node_mem_of_mem_childrenAt h⟩

theorem Stores.tuple (hw : p.WellTyped) (h : Stores p form value n target o dst) (hn : n ≠ 0) :
    (p.typing.tupleOf? value.node).isSome = true := by
  cases h with
  | @assignment q _ _ _ _ hq hk _ hp _ =>
    refine hp.tuple ?_ hn
    rw [← length_childrenAt]
    exact (hw.receivers q hq).assign hk
  | @declaration q _ _ _ _ hq hk hp _ =>
    refine hp.tuple ?_ hn
    rw [← length_childrenAt]
    exact (hw.receivers q hq).spec hk (isEmpty_childrenAt_of_mem hp.mem_values)
  | @returned q _ _ _ sig _ hq hk _ _ hs hp =>
    exact hp.tuple (((hw.receivers q hq).returned hk).2 sig hs (isEmpty_childrenAt_of_mem hp.mem_values)) hn
  | argument hq hk _ _ _ hp hnum _ _ =>
    by_contra hnone
    rw [if_neg hnone] at hnum
    exact hn hnum
  | keyed => exact absurd rfl hn
  | positional => exact absurd rfl hn
  | sent => exact absurd rfl hn

/-- Of a value with a test, only the value is nilable, so it is that which is stored. -/
theorem Stores.number_eq_zero (hw : p.WellTyped) (h : Stores p form value n target o dst)
    (hsingle : p.typing.single value.node.unparen = true) {t : TypeId}
    (hv : valueType? p.typing value.node (some n) = some (.typed t)) (ht : p.typing.nilable t = true) : n = 0 := by
  by_contra hn
  obtain ⟨vars, hvars⟩ := Option.isSome_iff_exists.1 (h.tuple hw hn)
  obtain ⟨q, f, hq, -, hvalue⟩ := h.exists_parent
  have htest := (hw.types value (hq.child hvalue)).test hsingle vars hvars
  obtain ⟨type, htype, htuple⟩ := Option.bind_eq_some_iff.1 hvars
  -- the type of the value is that of a component after the first
  have hcomponent : ∃ x ∈ vars.drop 1, p.typing.varType? x = some t := by
    unfold valueType? at hv
    split at hv
    · cases hv
    · rw [htype] at hv
      dsimp only at hv
      rw [htuple] at hv
      obtain ⟨s, hs, hst⟩ := Option.map_eq_some_iff.1 hv
      obtain ⟨x, hx, hxs⟩ := Option.bind_eq_some_iff.1 hs
      cases hst
      refine ⟨x, List.mem_of_getElem? (i := n - 1) ?_, hxs⟩
      rw [List.getElem?_drop, Nat.add_sub_cancel' (by omega)]
      exact hx
  obtain ⟨x, hx, hxt⟩ := hcomponent
  rw [htest x hx t hxt] at ht
  cases ht

/-! ## From the value -/

theorem Classifier.nilable_of_accepts {t : TypeId} (h : k.accepts t = true) : k.program.typing.nilable t = true := by
  unfold accepts at h
  simp only [Bool.and_eq_true] at h
  exact h.1

theorem Classifier.of_accepted? (h : k.accepted? o = some X) : k.program.typing.variableOf? o = some X ∧
    ∀ t ∈ k.program.typing.varType? (k.program.typing.originVar o), k.program.typing.nilable t = true := by
  obtain ⟨hvar, hany⟩ := Option.filter_eq_some_iff.1 h
  refine ⟨hvar, fun t ht => ?_⟩
  rw [Typing.id_of_variableOf? hvar, Option.mem_def.1 ht] at hany
  exact nilable_of_accepts hany

theorem Stores.found_value (hw : k.program.WellTyped) (h : Stores k.program form value n target o dst)
    (hform : form ≠ .argument true) (hX : k.accepted? o = some X) (hsearch : k.program.declarationObstacle? X = none)
    (hb : boxes k.program.typing (valueType? k.program.typing value.node (some n)) dst = false)
    (hdst : form = .argument false → dst.any k.accepts = true) (hvalue : value.node.kind ∈ walkedKinds)
    (hslot : slot.getD 0 = n) : ∃ f ∈ (k.dependents value slot).found, o ∈ f.objects := by
  obtain ⟨hvar, hnilable⟩ := Classifier.of_accepted? hX
  have htype : valueType? k.program.typing value.node slot = valueType? k.program.typing value.node (some n) :=
    valueType?_slot value.node hslot
  by_cases hargument : ∃ method, form = .argument method
  · obtain ⟨method, rfl⟩ := hargument
    cases h with
    | @argument call _ n j i fn o sig dst hq hk hconversion hfn hs hp hn hplace ho =>
      -- a function without receiver shares its parameters with no other one
      have hreceiver : sig.receiver = none := by
        cases hr : sig.receiver with
        | none => rfl
        | some r => simp [hr] at hform
      have hdeclarations : k.program.declarations k.settings.overrides fn = [k.program.typing.originFunc fn] := by
        unfold Program.declarations
        dsimp only
        rw [hs]
        dsimp only [Option.bind]
        rw [hreceiver]
      have hshared : k.sharedParameters call.node value.node (some i) call.node.facts.ellipsis
          [k.program.typing.originFunc fn] = .ok [o] := by
        unfold Classifier.sharedParameters
        dsimp only
        rw [hs]
        dsimp only [Option.bind]
        rw [ho]
        dsimp only
        rw [hvar]
        dsimp only
        rw [hsearch]
        rfl
      have haccepts : k.accepts dst = true := hdst (by rw [hreceiver]; rfl)
      rw [dependents_passed hk hconversion hfn hs hp hplace ho (isExpr_of_walked hvalue) (hslot.trans hn), htype, hb,
        haccepts, hdeclarations, hshared]
      exact ⟨_, List.mem_singleton_self _, List.mem_singleton_self _⟩
  · obtain ⟨context, span, dst', objects, hfound, hmem, -, hboxed⟩ :=
      h.dependents_value (k := k) hw (fun method heq => hargument ⟨method, heq⟩) hvalue hslot
    have hb' : ¬ boxes k.program.typing (valueType? k.program.typing value.node (some n)) dst' = true := by
      intro hb'
      rw [boxes_mono hb' (hboxed hnilable)] at hb
      cases hb
    rw [hfound, htype, Classifier.stored, if_neg hb']
    exact ⟨_, List.mem_singleton_self _, hmem⟩

/-! ## From what is stored into -/

theorem Paired.returnsAt {q : Cursor} {sig : Signature}
    (hm : k.program.typing.Matches sig.results.length (q.node.childrenAt .results))
    (h : Paired sig.results (q.childrenAt .results) o value n) : ∃ i : Nat, sig.results[i]? = some o ∧
      ReturnsAt q value sig i ∧ (k.tupleSlot value.node (some i)).getD 0 = n := by
  have hmem := Cursor.node_mem_of_mem_childrenAt h.mem_values
  unfold Classifier.tupleSlot
  cases h with
  | @each i hl hv hr =>
    refine ⟨i, hr, Or.inl ⟨hl, hv⟩, ?_⟩
    split
    · rename_i htuple
      rcases hm with ⟨-, hnone⟩ | ⟨hone, -⟩
      · have hnone : value.node.facts.type.bind k.program.typing.tuple? = none := hnone _ hmem
        simp [hnone] at htuple
      · have hlt := (List.getElem?_eq_some_iff.1 hv).1
        rw [← length_childrenAt, hone] at hlt
        simpa using hlt
    · rfl
  | component hl hv hr =>
    refine ⟨n, hr, Or.inr hv, ?_⟩
    split
    · rfl
    · rename_i htuple
      by_contra hn
      exact htuple (Paired.tuple hm (.component hl hv hr) (Ne.symm hn))

/-- A match of the variable that is stored into is followed through the store, unless no name stands for it there. -/
theorem Stores.exists_meets (hi : k.program.Indexed) (hw : k.program.WellTyped)
    (h : Stores k.program form value n target o dst) (hform : form ≠ .positional)
    (hopens : ∀ t ∈ target, Opens k.program.typing t) (hX : k.program.typing.variableOf? o = some X) :
    ∃ m ∈ k.program.index.occurrencesOf X, m.inDocComment = false ∧ Meets k m value n form target := by
  cases target with
  | some t =>
    obtain ⟨ho, q, f, hq, hk, ht⟩ := h.exists_target_parent
    have hedge : t.edge? ≠ some ⟨.selectorExpr, .sel⟩ := by simp [Cursor.edge?_of_mem_childrenAt ht, hk]
    obtain ⟨slot, m, hm, hdoc, harrives⟩ := resolve_arrives hi hw.resolved hX t (hq.child ht) hedge (hopens t rfl) ho
    exact ⟨m, hm, hdoc, .target harrives⟩
  | none =>
    -- results and parameters have matches at the statements and calls themselves
    cases h with
    | @returned q _ fn _ sig _ hq hk hfn hdecl hs hp =>
      obtain ⟨package, hpackage, hmem⟩ := hq
      have hmatches := ((hw.receivers q ⟨package, hpackage, hmem⟩).returned hk).2 sig hs
        (isEmpty_childrenAt_of_mem hp.mem_values)
      obtain ⟨i, hr, hat, hn⟩ := hp.returnsAt (k := k) hmatches
      have hm := mem_matchesAt_returned hk hs hr hat hX package.ref.number
      exact ⟨_, (Program.mem_occurrencesOf_iff hi).2 ⟨rfl, package, hpackage, q, hmem, hm⟩, rfl, .returned rfl rfl hn⟩
    | @argument call _ _ j i fn _ sig dst hq hk hconversion hfn hs hp hn hplace ho =>
      obtain ⟨c, ⟨package, hpackage, hmem⟩, hcalls, huses⟩ := exists_callee hw.resolved hq hk hfn
      have hparam : sig.paramAt (argumentPlace (isMethodExprCall call.node) j) = some o := by
        rw [hplace]
        exact (exists_place_of_parameterAt? ho).1
      have hm := mem_matchesAt_argument huses hs hcalls hp hparam hX package.ref.number
      refine ⟨_, (Program.mem_occurrencesOf_iff hi).2 ⟨rfl, package, hpackage, c, hmem, hm⟩, rfl, .argument rfl rfl ?_⟩
      rw [hn]
      unfold Classifier.tupleSlot passedSlot Typing.tupleOf?
      split <;> rfl
    | positional => exact absurd rfl hform

/-! ## Both directions -/

/-- The variable that holds the value discovers the one that is stored into. -/
theorem Stores.discovers_target (hi : k.program.Indexed) (hw : k.program.WellTyped)
    (h : Stores k.program form value n target o dst) (hform : form ≠ .argument true) (hX : k.accepted? o = some X)
    (hp : producer k.program.typing value.node (some n) = .ok (some y)) (hY : k.accepted? y = some Y) {t : TypeId}
    (hv : valueType? k.program.typing value.node (some n) = some (.typed t)) (ht : k.accepts t = true)
    (hb : boxes k.program.typing (valueType? k.program.typing value.node (some n)) dst = false)
    (hdst : form = .argument false → dst.any k.accepts = true) (hopens : Opens k.program.typing value)
    (hsearch : k.program.declarationObstacle? X = none) :
    ∃ m ∈ k.program.index.occurrencesOf Y, m.inDocComment = false ∧ X ∈ (k.propagate m).1.vars := by
  obtain ⟨q, f, hq, hk, hvalue⟩ := h.exists_parent
  have hedge : value.edge? ≠ some ⟨.selectorExpr, .sel⟩ := by simp [Cursor.edge?_of_mem_childrenAt hvalue, hk]
  obtain ⟨slot, ⟨m, hm, hdoc, harrives⟩, hslot⟩ :=
    producer_arrives hi hw.resolved (Classifier.of_accepted? hY).1 value (hq.child hvalue) hedge hopens hp
  have hnumber : slot.getD 0 = n := by
    rw [hslot]
    split
    · rename_i hsingle
      exact (h.number_eq_zero hw hsingle hv (Classifier.nilable_of_accepts ht)).symm
    · rfl
  obtain ⟨found, hfound, ho⟩ := h.found_value hw hform hX hsearch hb hdst harrives.walked hnumber
  refine ⟨m, hm, hdoc, ?_⟩
  rw [(Classifier.propagate_of_arrives harrives).1]
  exact Classifier.mem_vars_flowOf.2 ⟨found, hfound, o, ho, hX⟩

/-- The variable that is stored into discovers the one that holds the value. -/
theorem Stores.discovers_source (hi : k.program.Indexed) (hw : k.program.WellTyped)
    (h : Stores k.program form value n target o dst) (hform : form ≠ .sent ∧ form ≠ .positional)
    (hX : k.program.typing.variableOf? o = some X)
    (hp : producer k.program.typing value.node (some n) = .ok (some y)) (hY : k.accepted? y = some Y)
    (hb : boxes k.program.typing (valueType? k.program.typing value.node (some n)) dst = false)
    (hopens : ∀ t ∈ target, Opens k.program.typing t) (hsearch : k.program.ofLiteral X = false) :
    ∃ m ∈ k.program.index.occurrencesOf X, m.inDocComment = false ∧ Y ∈ (k.propagate m).1.vars := by
  obtain ⟨m, hm, hdoc, hmeets⟩ := h.exists_meets hi hw hform.2 hopens hX
  obtain ⟨hvar, -⟩ := (Program.mem_occurrencesOf_iff hi).1 hm
  obtain ⟨context, siblings, hnone, -, hvars, -⟩ := h.propagate_meets hw hform.1 hX hsearch hvar hmeets
  have hsource : k.source context value.node (some n) dst = .one ⟨context, value.node.span, [y], false⟩ := by
    unfold Classifier.source
    rw [hb, if_neg (by simp), hp]
  refine ⟨m, hm, hdoc, ?_⟩
  rw [hvars, Findings.andThen, hnone, hsource]
  exact Classifier.mem_vars_flowOf.2 ⟨_, List.mem_append_right _ (List.mem_singleton_self _), y,
    List.mem_singleton_self _, hY⟩

/-! ## Groups -/

namespace Classifier

variable {root root' : Root} {polls polls' : Option Nat} {served served' : List Variable} {last last' : Run}
  {h h' : Harvest} {s s' : Seeds} {v : Variable}

theorem Passes.mem_finds (hi : k.program.Indexed) (hp : k.Passes Y)
    (hm : ∃ m ∈ k.program.index.occurrencesOf Y, m.inDocComment = false ∧ X ∈ (k.propagate m).1.vars) :
    X ∈ k.finds Y := by
  obtain ⟨m, hm, hdoc, hX⟩ := hm
  obtain ⟨ms, hs, hall⟩ := hp.exists_matches
  obtain ⟨-, -, -, rfl⟩ := Program.search_eq_ok_iff.1 hs
  exact (hall m hm (hi.exact hm) hdoc).2 X hX

theorem Reachable.trans (hv : k.Reachable s v) (hs : ∀ x ∈ s.flow.vars, k.Reachable s' x) : k.Reachable s' v := by
  induction hv with
  | seed hx => exact hs _ hx
  | found _ hpasses hx ih => exact ih.found hpasses hx

namespace Completes

/-- When nothing is ruled out, a member is in one group with all that its search finds. -/
theorem sameGroup_of_finds (hc : k.Completes root polls served last h) (hnone : ∀ x, x ∉ h.ruledOut)
    (hX : h.Grouped X) (hY : Y ∈ k.finds X) : h.SameGroup X Y := by
  obtain ⟨served, last, hc, hlost⟩ := hc.nothingLost hnone
  obtain ⟨d, hd, hvar⟩ := mem_finds.1 hY
  have hbound : WorkList.Bound (k.calls (k.seed root).1 served) last.ruledOut X Y :=
    ⟨hc.grouped_iff.1 hX, hc.grouped_iff.1 ((hc.found hX hY).resolve_right (hnone Y)), _, hc.discovery_mem_calls hX hd,
      Or.inr (Or.inl ⟨rfl, hvar⟩)⟩
  -- being bound by a discovery is enough, since no union has lost its members
  refine hc.sameGroup_iff.2 (WorkList.joined_of_eqvGen_bound hc.trace.rooted ?_ (.rel _ _ hbound) hbound.1)
  intro e he hl a b ha hb hsa hsb
  have hlives : h.Grouped = WorkList.Survives (k.calls (k.seed root).1 served) last.ruledOut :=
    funext fun x => propext hc.grouped_iff
  rw [← hlives] at hl hsa hsb
  exact hc.sameGroup_iff.1 (hlost e he hl a b ha hb hsa hsb)

/-- When nothing is ruled out, the group of a single seed is what is reached from it. -/
theorem sameGroup_iff_reachable (hc : k.Completes root polls served last h) (hnone : ∀ x, x ∉ h.ruledOut)
    (hseed : (k.seed root).1.flow.vars = [X]) : h.SameGroup X v ↔ k.Reachable (k.seed root).1 v := by
  constructor
  · rintro ⟨g, hg, -, hv⟩
    exact hc.trace.reachable ((Forest.elements_trim_sublist _ _).mem (hc.mem_trim_iff.1 ⟨g, hg, hv⟩))
  · intro hv
    induction hv with
    | seed hx =>
      have hgroup := hc.grouped_of_reachable hnone (.seed hx)
      rw [hseed] at hx
      obtain rfl := List.mem_singleton.1 hx
      obtain ⟨g, hg, hv⟩ := hgroup
      exact ⟨g, hg, hv, hv⟩
    | found _ _ hx ih =>
      obtain ⟨g, hg, hX, hy⟩ := ih
      obtain ⟨g', hg', hy', hx'⟩ := hc.sameGroup_of_finds hnone ⟨g, hg, hy⟩ hx
      obtain rfl := hc.group_unique hg hg' hy hy'
      exact ⟨g, hg, hX, hx'⟩

theorem passes_of_seed (hc : k.Completes root polls served last h) (hnone : ∀ x, x ∉ h.ruledOut)
    (hseed : (k.seed root).1.flow.vars = [X]) : k.Passes X :=
  (hc.served_once (hc.grouped_of_reachable hnone (.seed (by simp [hseed])))).2

/-- Two variables that find each other have the same group, whichever is seeded. -/
theorem sameGroup_congr (hc : k.Completes root polls served last h) (hc' : k.Completes root' polls' served' last' h')
    (hnone : ∀ x, x ∉ h.ruledOut) (hnone' : ∀ x, x ∉ h'.ruledOut) (hseed : (k.seed root).1.flow.vars = [X])
    (hseed' : (k.seed root').1.flow.vars = [Y]) (hX : Y ∈ k.finds X) (hY : X ∈ k.finds Y) :
    h.SameGroup X v ↔ h'.SameGroup Y v := by
  rw [hc.sameGroup_iff_reachable hnone hseed, hc'.sameGroup_iff_reachable hnone' hseed']
  have hfrom : ∀ x ∈ (k.seed root).1.flow.vars, k.Reachable (k.seed root').1 x := by
    rw [hseed]
    intro x hx
    obtain rfl := List.mem_singleton.1 hx
    exact .found (.seed (by simp [hseed'])) (hc'.passes_of_seed hnone' hseed') hY
  have hto : ∀ x ∈ (k.seed root').1.flow.vars, k.Reachable (k.seed root).1 x := by
    rw [hseed']
    intro x hx
    obtain rfl := List.mem_singleton.1 hx
    exact .found (.seed (by simp [hseed])) (hc.passes_of_seed hnone hseed) hX
  exact ⟨fun hv => hv.trans hfrom, fun hv => hv.trans hto⟩

end Completes

/-! ## The two directions together -/

/-- The way from the variable that holds a value to the place that it is stored into: its operands can be opened, and
what an argument is assigned to is accepted, which only a variadic parameter may not be. -/
def LeadsTo (k : Classifier) (form : StoreForm) (value : Cursor) (dst : Option TypeId) : Prop :=
  Opens k.program.typing value ∧ (form = .argument false → dst.any k.accepts = true)

/-- The way back: some name or call stands for what is stored into, and its operands can be opened. -/
def LeadsBack (k : Classifier) (form : StoreForm) (target : Option Cursor) : Prop :=
  form ≠ .positional ∧ ∀ t ∈ target, Opens k.program.typing t

/-- A complete harvest grows from a single seed and rules nothing out. -/
def GrowsFrom (k : Classifier) (v : Variable) (r : Harvest) : Prop :=
  ∃ root polls, (k.harvest root polls = .ok r ∧ r.complete = true) ∧ (∀ x, x ∉ r.ruledOut) ∧
    (k.seed root).1.flow.vars = [v]

/-- When a value that some variable holds is stored into another one without boxing, and all types are accepted, then
the matches of each variable discover the other one, if the ways lead there. If both do, the group that grows from
either of the two variables is the same. -/
theorem stores_symmetric (hi : k.program.Indexed) (hw : k.program.WellTyped)
    (h : Stores k.program form value n target o dst) (hform : form ≠ .sent ∧ form ≠ .argument true)
    (hX : k.accepted? o = some X) (hp : producer k.program.typing value.node (some n) = .ok (some y))
    (hY : k.accepted? y = some Y) {t : TypeId}
    (hv : valueType? k.program.typing value.node (some n) = some (.typed t)) (ht : k.accepts t = true)
    (hb : boxes k.program.typing (valueType? k.program.typing value.node (some n)) dst = false)
    {msX msY : List Match} (hsX : k.program.search X = .ok msX) (hsY : k.program.search Y = .ok msY) :
    (k.LeadsTo form value dst → ∃ m ∈ msY, X ∈ (k.propagate m).1.vars) ∧
    (k.LeadsBack form target → ∃ m ∈ msX, Y ∈ (k.propagate m).1.vars) ∧
    (k.LeadsTo form value dst → k.LeadsBack form target → ∀ r r', k.GrowsFrom X r → k.GrowsFrom Y r' →
      ∀ v, r.SameGroup X v ↔ r'.SameGroup Y v) := by
  obtain ⟨hdeclared, hliteral, -, rfl⟩ := Program.search_eq_ok_iff.1 hsX
  obtain ⟨-, -, -, rfl⟩ := Program.search_eq_ok_iff.1 hsY
  have hforward : k.LeadsTo form value dst → ∃ m ∈ k.program.index.occurrencesOf Y, m.inDocComment = false ∧
      X ∈ (k.propagate m).1.vars := fun ⟨hopens, hdst⟩ =>
    h.discovers_target hi hw hform.2 hX hp hY hv ht hb hdst hopens
      (Program.declarationObstacle?_eq_none_iff.2 hdeclared)
  have hbackward : k.LeadsBack form target → ∃ m ∈ k.program.index.occurrencesOf X, m.inDocComment = false ∧
      Y ∈ (k.propagate m).1.vars := fun ⟨hpositional, hopens⟩ =>
    h.discovers_source hi hw ⟨hform.1, hpositional⟩ (of_accepted? hX).1 hp hY hb hopens hliteral
  refine ⟨fun hto => ?_, fun hback => ?_, ?_⟩
  · obtain ⟨m, hm, -, hmX⟩ := hforward hto
    exact ⟨m, hm, hmX⟩
  · obtain ⟨m, hm, -, hmY⟩ := hbackward hback
    exact ⟨m, hm, hmY⟩
  · rintro hto hback r r' ⟨root, polls, hr, hnone, hseed⟩ ⟨root', polls', hr', hnone', hseed'⟩ v
    obtain ⟨served, last, hc⟩ := harvest_complete_iff.1 hr
    obtain ⟨served', last', hc'⟩ := harvest_complete_iff.1 hr'
    exact hc.sameGroup_congr hc' hnone hnone' hseed hseed'
      ((hc.passes_of_seed hnone hseed).mem_finds hi (hbackward hback))
      ((hc'.passes_of_seed hnone' hseed').mem_finds hi (hforward hto))

end Classifier

theorem eq_ok_of_toOption {α β : Type} {e : Except α β} {b : β} (h : e.toOption = some b) : e = .ok b := by
  cases e with
  | error => cases h
  | ok => exact congrArg _ (Option.some.inj h)

namespace Forwarding

theorem wellTyped : classifier.program.WellTyped := by decide +kernel

/-- The call `f(A)` stores `A` into `x`, and so `A` discovers `x` and `x` discovers `A`. -/
theorem argument_both_ways : ∃ value msX msA, Stores classifier.program (.argument false) value 0 none 2 (some 0) ∧
    producer typing value.node (some 0) = .ok (some 0) ∧ classifier.program.search varX = .ok msX ∧
    classifier.program.search varA = .ok msA ∧ (∃ m ∈ msA, varX ∈ (classifier.propagate m).1.vars) ∧
    ∃ m ∈ msX, varA ∈ (classifier.propagate m).1.vars := by
  have h : ∃ call ∈ packages[0].cursors, (call.node.kind = .callExpr ∧ isConversion call.node = false ∧
      calleeOf typing call.node = .func 4) ∧ (isMethodExprCall call.node = false ∧ call.node.facts.ellipsis = false) ∧
      (call.childrenAt .args).length = 1 ∧ ∃ value ∈ call.childrenAt .args, value.node.kind = .ident ∧
        typing.tupleOf? value.node = none ∧ valueType? typing value.node (some 0) = some (.typed 0) ∧
        (producer typing value.node (some 0)).toOption = some (some 0) := by decide +kernel
  obtain ⟨call, hcall, ⟨hk, hconversion, hfn⟩, ⟨hexpr, hellipsis⟩, hone, value, hvalue, hident, htuple, htype, hp⟩ := h
  have hholds : classifier.program.Holds call := ⟨packages[0], List.mem_cons_self, hcall⟩
  have hfirst : (call.childrenAt .args)[0]? = some value := by
    rw [Cursor.childrenAt_eq_singleton hone hvalue]
    rfl
  have hsignature : typing.signature? (typing.originFunc 4) = some ⟨none, [2], [3], false⟩ := by decide +kernel
  have hstore : Stores classifier.program (.argument false) value 0 none 2 (some 0) := by
    refine .argument (i := 0) (j := 0) hholds hk hconversion hfn hsignature (.single hfirst htuple) ?_ ?_ ?_
    · rw [show classifier.program.typing.tupleOf? value.node = none from htuple]
      rfl
    · rw [hexpr]
      rfl
    · rw [hellipsis]
      decide +kernel
  have hsX : (classifier.program.search varX).toOption.isSome = true := by decide +kernel
  have hsA : (classifier.program.search varA).toOption.isSome = true := by decide +kernel
  obtain ⟨msX, hsX⟩ := Option.isSome_iff_exists.1 hsX
  obtain ⟨msA, hsA⟩ := Option.isSome_iff_exists.1 hsA
  have hboxes : boxes typing (valueType? typing value.node (some 0)) (some 0) = false := by
    rw [htype]
    decide +kernel
  obtain ⟨hto, hback, -⟩ := Classifier.stores_symmetric (k := classifier) (Program.indexed_ofPackages ..) wellTyped
    hstore (by decide) (X := varX) (by decide +kernel) (eq_ok_of_toOption hp) (Y := varA) (by decide +kernel) htype
    (by decide +kernel) hboxes (eq_ok_of_toOption hsX) (eq_ok_of_toOption hsA)
  exact ⟨value, msX, msA, hstore, eq_ok_of_toOption hp, eq_ok_of_toOption hsX, eq_ok_of_toOption hsA,
    hto ⟨opens_ident hident, fun _ => by decide +kernel⟩, hback ⟨by decide, by simp⟩⟩

end Forwarding

/-! ## A literal without keys -/

namespace Unkeyed

/-- The syntax of `type T struct{ F *int }`, `var Y *int` and `var V = T{Y}`. -/
def source : Node :=
  .mk ⟨none, .file, ⟨1, 61⟩, {}⟩ [
    .mk ⟨some .name, .ident, ⟨9, 10⟩, { name := "p" }⟩ [],
    .mk ⟨some .decls, .genDecl, ⟨12, 35⟩, {}⟩ [
      .mk ⟨some .specs, .typeSpec, ⟨17, 35⟩, {}⟩ [
        .mk ⟨some .name, .ident, ⟨17, 18⟩, { name := "T", declares := some 0, type := some 0 }⟩ [],
        .mk ⟨some .typeExpr, .structType, ⟨19, 35⟩, { type := some 1, isType := true }⟩ [
          .mk ⟨some .fields, .fieldList, ⟨25, 35⟩, {}⟩ [
            .mk ⟨some .list, .field, ⟨27, 33⟩, {}⟩ [
              .mk ⟨some .names, .ident, ⟨27, 28⟩, { name := "F", declares := some 1, type := some 2 }⟩ [],
              .pointerType .typeExpr 29 2 2 3]]]]],
    .mk ⟨some .decls, .genDecl, ⟨37, 47⟩, {}⟩ [
      .mk ⟨some .specs, .valueSpec, ⟨41, 47⟩, {}⟩ [
        .mk ⟨some .names, .ident, ⟨41, 42⟩, { name := "Y", declares := some 3, type := some 4 }⟩ [],
        .pointerType .typeExpr 43 4 2 3]],
    .mk ⟨some .decls, .genDecl, ⟨49, 61⟩, {}⟩ [
      .mk ⟨some .specs, .valueSpec, ⟨53, 61⟩, {}⟩ [
        .mk ⟨some .names, .ident, ⟨53, 54⟩, { name := "V", declares := some 4, type := some 0 }⟩ [],
        .mk ⟨some .values, .compositeLit, ⟨57, 61⟩, { type := some 0 }⟩ [
          .mk ⟨some .typeExpr, .ident, ⟨57, 58⟩, { name := "T", uses := some 0, type := some 0, isType := true }⟩ [],
          .mk ⟨some .elts, .ident, ⟨59, 60⟩, { name := "Y", uses := some 3, type := some 4 }⟩ []]]]]

def typing : Typing where
  types := #[⟨.named 0 1 false, none⟩, ⟨.struct [1], none⟩, ⟨.pointer 3, none⟩, ⟨.basic "int", none⟩,
    ⟨.pointer 3, some 2⟩]
  objects := #[⟨"T", 17, some ⟨0, "p"⟩, .typeName 0⟩, ⟨"F", 27, some ⟨0, "p"⟩, .var 2 .field none (some "T.UF0")⟩,
    ⟨"int", 0, none, .typeName 3⟩, ⟨"Y", 41, some ⟨0, "p"⟩, .var 4 .var none (some "Y")⟩,
    ⟨"V", 53, some ⟨0, "p"⟩, .var 0 .var none (some "V")⟩]
  scope := [⟨0, "T", "", 0⟩, ⟨0, "V", "", 4⟩, ⟨0, "Y", "", 3⟩]
  impls := []

def files : List SourceFile := [⟨"p", 0, 1, 61, [0, 10, 11, 35, 36, 47, 48, 61], false, [], some source, []⟩]

def packages : List Package := [⟨⟨0, "p"⟩, files, false⟩]

def classifier : Classifier := ⟨.ofPackages typing files packages false, .standard⟩

def varF : Variable := ⟨1, "F", 27, some ⟨0, "p"⟩, .field, some "T.UF0"⟩

def varY : Variable := ⟨3, "Y", 41, some ⟨0, "p"⟩, .var, some "Y"⟩

/-- The literal `T{Y}` stores `Y` into the field, but names no field, so that `Y` discovers `F` and no match of `F`
discovers `Y`. -/
theorem literal_one_way : classifier.program.WellTyped ∧
    (∃ value, Stores classifier.program .positional value 0 none 1 (some 2) ∧
      producer typing value.node (some 0) = .ok (some 3) ∧ valueType? typing value.node (some 0) = some (.typed 4) ∧
      boxes typing (valueType? typing value.node (some 0)) (some 2) = false) ∧
    (classifier.accepted? 1 = some varF ∧ classifier.accepted? 3 = some varY ∧ classifier.accepts 4 = true) ∧
    ∃ msF msY, classifier.program.search varF = .ok msF ∧ classifier.program.search varY = .ok msY ∧
      (∃ m ∈ msY, varF ∈ (classifier.propagate m).1.vars) ∧ ∀ m ∈ msF, varY ∉ (classifier.propagate m).1.vars := by
  have h : ∃ lit ∈ packages[0].cursors, (lit.node.kind = .compositeLit ∧ structFields? typing lit.node = some [1]) ∧
      (lit.childrenAt .elts).length = 1 ∧ ∃ value ∈ lit.childrenAt .elts, value.node.kind ≠ .keyValueExpr ∧
        (producer typing value.node (some 0)).toOption = some (some 3) ∧
        valueType? typing value.node (some 0) = some (.typed 4) := by decide +kernel
  obtain ⟨lit, hlit, ⟨hk, hfields⟩, hone, value, hvalue, hkeyed, hp, htype⟩ := h
  have hfirst : (lit.childrenAt .elts)[0]? = some value := by
    rw [Cursor.childrenAt_eq_singleton hone hvalue]
    rfl
  have hstore : Stores classifier.program .positional value 0 none 1 (some 2) :=
    .positional ⟨packages[0], List.mem_cons_self, hlit⟩ hk hfields hfirst hkeyed (i := 0) rfl
  have hboxes : boxes typing (valueType? typing value.node (some 0)) (some 2) = false := by
    rw [htype]
    decide +kernel
  have hsF : (classifier.program.search varF).toOption.any (fun ms => ms.all fun m =>
      varY ∉ (classifier.propagate m).1.vars) = true := by decide +kernel
  have hsY : (classifier.program.search varY).toOption.any (fun ms => ms.any fun m =>
      varF ∈ (classifier.propagate m).1.vars) = true := by decide +kernel
  obtain ⟨msF, hmsF, hF⟩ := (Option.any_eq_true _ _).1 hsF
  obtain ⟨msY, hmsY, hY⟩ := (Option.any_eq_true _ _).1 hsY
  refine ⟨by decide +kernel, ⟨value, hstore, eq_ok_of_toOption hp, htype, hboxes⟩, by decide +kernel, msF, msY,
    eq_ok_of_toOption hmsF, eq_ok_of_toOption hmsY, by simpa using hY, by simpa using hF⟩

end Unkeyed

end NilFlow
