import Mathlib.Data.List.Nodup
import Mathlib.Data.List.Pairwise
import NilFlow.Proofs.Forest.CoDiscovery
import NilFlow.Proofs.Forest.WellFormed

/-!
# Components of a forest nothing was trimmed from

* `Insertion.settled`: an insertion without a source that has no node. It adds the same, and so every history is one
  that grows by sources with a node: `WorkList.grown_settled`.
* `Insertion.Binds`, `WorkList.Linked`: the candidates of a discovery, together with its source when that has a node.
* `WorkList.together_iff_linked`: two elements lie in one component exactly when chains of discoveries link them.
* `Variable.le_trans`, `Forest.headLe_trans`: the orders in which components are listed are total.
* `WorkList.components_are_linked_classes`: the components of any history, and that its order does not matter.
-/

namespace NilFlow

variable {α : Type} [DecidableEq α]

/-! ## Sources without a node -/

/-- A source without a node is no source to an insertion. -/
theorem Forest.bind_filter_elements (f : Forest α) (source : Option α) :
    (source.filter (· ∈ f.elements)).bind f.idOf? = source.bind f.idOf? := by
  cases source with
  | none => rfl
  | some x =>
    by_cases hx : x ∈ f.elements
    · rw [Option.filter_some, if_pos (decide_eq_true hx)]
    · have hnone : f.idOf? x = none := by
        cases hid : f.idOf? x with
        | none => rfl
        | some i => exact absurd ((f.mem_elements_iff x).2 ⟨i, varAt?_of_idOf? hid⟩) hx
      rw [Option.filter_some, if_neg (by simpa using hx)]
      exact hnone.symm

theorem Forest.add_congr (f : Forest α) {s s' : Option α} (h : s.bind f.idOf? = s'.bind f.idOf?) (d : Discovery α) :
    f.add s d = f.add s' d := by
  unfold Forest.add
  rw [h]

namespace Insertion

/-- The insertion without its source, if that has no node. -/
def settled (e : Insertion α) : Insertion α := { e with source := e.source.filter (· ∈ e.before.elements) }

/-- A candidate of the discovery, or the source, if that has a node. -/
def Binds (e : Insertion α) (v : α) : Prop := v ∈ e.discovery.vars ∨ (e.source = some v ∧ v ∈ e.before.elements)

theorem mem_elements_of_settled {e : Insertion α} {x : α} (h : e.settled.source = some x) :
    e.source = some x ∧ x ∈ e.before.elements := by
  obtain ⟨hs, hx⟩ := Option.filter_eq_some_iff.1 h
  exact ⟨hs, of_decide_eq_true hx⟩

theorem member_settled {e : Insertion α} {v : α} : e.settled.Member v ↔ e.Binds v := by
  unfold Binds
  constructor
  · rintro (hs | hv)
    · exact Or.inr (mem_elements_of_settled hs)
    · exact Or.inl hv
  · rintro (hv | ⟨hs, hx⟩)
    · exact Or.inr hv
    · refine Or.inl (Option.filter_eq_some_iff.2 ⟨hs, decide_eq_true hx⟩)

end Insertion

namespace WorkList

variable {calls calls' : List (Option α × Discovery α)} {le : α → α → Bool}

theorem grown_settled_after : ∀ (calls : List (Option α × Discovery α)) {w : WorkList α} {es : List (Insertion α)},
    Forest.Grown es w.forest →
      Forest.Grown (es ++ (w.insertions calls).map Insertion.settled) (w.after calls).forest
  | [], w, es, hg => by
    unfold insertions
    rw [List.map_nil, List.append_nil]
    exact hg
  | c :: calls, w, es, hg => by
    have hadd : w.forest.add (c.1.filter (· ∈ w.forest.elements)) c.2 = (w.addAll c.1 [c.2]).forest :=
      w.forest.add_congr (w.forest.bind_filter_elements c.1) c.2
    have hstep := hg.add (c.1.filter (· ∈ w.forest.elements)) c.2 fun x hx =>
      of_decide_eq_true (Option.filter_eq_some_iff.1 hx).2
    rw [hadd] at hstep
    have ih := grown_settled_after calls (w := w.addAll c.1 [c.2]) hstep
    rwa [List.append_assoc] at ih

/-- Every history grows its forest by sources that have a node. -/
theorem grown_settled (calls : List (Option α × Discovery α)) :
    Forest.Grown (((empty : WorkList α).insertions calls).map Insertion.settled) (ofCalls calls).forest :=
  grown_settled_after calls (w := empty) .empty

/-! ## Links -/

/-- One discovery binds both elements. -/
def Linked (calls : List (Option α × Discovery α)) (a b : α) : Prop :=
  ∃ e ∈ (empty : WorkList α).insertions calls, e.Binds a ∧ e.Binds b

theorem mem_elements_of_binds {e : Insertion α} (he : e ∈ (empty : WorkList α).insertions calls) {v : α}
    (hv : e.Binds v) : v ∈ (ofCalls calls).forest.elements := by
  rcases hv with hv | ⟨-, hv⟩
  · exact (mem_elements_ofCalls v).2 ⟨_, (mem_insertions calls he).1, hv⟩
  · have hext := Forest.Extends.trans (Insertion.extends_after e.settled)
      ((grown_settled calls).extends_after (List.mem_map_of_mem he))
    obtain ⟨i, hi⟩ := (e.before.mem_elements_iff v).1 hv
    exact (Forest.mem_elements_iff _ v).2 ⟨i, hext.varAt?_eq hi⟩

/-- While nothing is trimmed, what a discovery binds is held together. -/
theorem held_iff_linked (calls : List (Option α × Discovery α)) (a b : α) :
    Held ((empty.insertions calls).map Insertion.settled) (· ∈ (ofCalls calls).forest.elements) a b ↔
      Linked calls a b := by
  constructor
  · rintro ⟨-, -, e', he', -, ha, hb⟩
    obtain ⟨e, he, rfl⟩ := List.mem_map.1 he'
    exact ⟨e, he, Insertion.member_settled.1 ha, Insertion.member_settled.1 hb⟩
  · rintro ⟨e, he, ha, hb⟩
    have hmem : e.settled ∈ (empty.insertions calls).map Insertion.settled := List.mem_map_of_mem he
    refine ⟨mem_elements_of_binds he ha, mem_elements_of_binds he hb, _, hmem, ?_,
      Insertion.member_settled.2 ha, Insertion.member_settled.2 hb⟩
    -- the new elements of a union all live
    rintro ⟨hg, hlost⟩
    obtain ⟨v, hv⟩ := Insertion.exists_created_of_gathers hg
    obtain ⟨c, j, -, hvar, -⟩ := (grown_settled calls).exists_fresh hmem hv
    exact hlost v hv ((Forest.mem_elements_iff _ v).2 ⟨_, hvar⟩)

theorem trim_nil (calls : List (Option α × Discovery α)) :
    (ofCalls calls).forest.trim [] = (ofCalls calls).forest :=
  (grown_settled calls).wellFormed.trim_eq_self (by simp)

/-- Components are what chains of discoveries link. -/
theorem together_iff_linked {a b : α} (ha : a ∈ (ofCalls calls).forest.elements)
    (hb : b ∈ (ofCalls calls).forest.elements) :
    (ofCalls calls).forest.Together le a b ↔ Relation.EqvGen (Linked calls) a b := by
  have hlinked : Linked calls = Held ((empty.insertions calls).map Insertion.settled)
      (· ∈ (ofCalls calls).forest.elements) :=
    funext fun a => funext fun b => propext (held_iff_linked calls a b).symm
  rw [hlinked]
  rw [← trim_nil calls] at ha hb ⊢
  exact (grown_settled calls).together_iff ha hb

theorem sound_ofCalls (calls : List (Option α × Discovery α)) : (ofCalls calls).forest.Sound := by
  have h := (ofCalls calls).forest.sound_trim []
  rwa [trim_nil] at h

/-! ## Order and repetition of calls -/

theorem binds_iff_member (h : Rooted calls) {e : Insertion α} (he : e ∈ (empty : WorkList α).insertions calls) {v : α} :
    e.Binds v ↔ e.Member v := by
  constructor
  · rintro (hv | ⟨hs, -⟩)
    · exact Or.inr hv
    · exact Or.inl hs
  · rintro (hs | hv)
    · exact Or.inr ⟨hs, h e he v hs⟩
    · exact Or.inl hv

/-- When all sources have a node, the calls alone tell what is linked. -/
theorem Linked.of_subset (h : Rooted calls) (h' : Rooted calls') (hsub : ∀ c ∈ calls, c ∈ calls') {a b : α}
    (hab : Linked calls a b) : Linked calls' a b := by
  obtain ⟨e, he, ha, hb⟩ := hab
  obtain ⟨e', he', hs, hd⟩ := exists_insertion_of_mem calls' empty (hsub _ (mem_insertions calls he).1)
  have hmember : ∀ {v}, e.Binds v → e'.Binds v := by
    intro v hv
    rw [binds_iff_member h he] at hv
    rw [binds_iff_member h' he']
    unfold Insertion.Member at hv ⊢
    rwa [hs, hd]
  exact ⟨e', he', hmember ha, hmember hb⟩

theorem linked_congr (h : Rooted calls) (h' : Rooted calls') (hc : ∀ c, c ∈ calls ↔ c ∈ calls') :
    Linked calls = Linked calls' :=
  funext fun _ => funext fun _ => propext ⟨.of_subset h h' fun c => (hc c).1, .of_subset h' h fun c => (hc c).2⟩

end WorkList

/-! ## Listing components -/

namespace Variable

instance : Std.TransCmp compare :=
  inferInstanceAs (Std.TransCmp (compareLex (compareOn pos) (compareLex (compareOn name) (compareOn packagePath))))

theorem le_trans {a b c : Variable} (hab : a.le b) (hbc : b.le c) : a.le c := Std.TransCmp.isLE_trans hab hbc

theorem le_total (a b : Variable) : a.le b || b.le a := by
  have hswap : b.compare a = (a.compare b).swap := Std.OrientedCmp.eq_swap
  unfold le
  rw [hswap]
  cases a.compare b <;> rfl

end Variable

namespace Forest

section

variable {β : Type} {le : β → β → Bool}

theorem headLe_trans (htrans : ∀ a b c, le a b → le b c → le a c) :
    ∀ a b c, headLe le a b → headLe le b c → headLe le a c
  | [], _, _, _, _ => rfl
  | _ :: _, [], _, hab, _ => absurd hab (by simp [headLe])
  | _ :: _, _ :: _, [], _, hbc => absurd hbc (by simp [headLe])
  | x :: _, y :: _, z :: _, hab, hbc => htrans x y z hab hbc

theorem headLe_total (htotal : ∀ a b, le a b || le b a) : ∀ a b, headLe le a b || headLe le b a
  | [], _ => rfl
  | _ :: _, [] => rfl
  | x :: _, y :: _ => htotal x y

variable {f : Forest β}

theorem nodup_of_mem_components (hn : (f.components le).flatten.Nodup) {c : List β} (hc : c ∈ f.components le) :
    c.Nodup :=
  (List.nodup_flatten.1 hn).1 c hc

theorem mem_iff_together (hn : (f.components le).flatten.Nodup) {c : List β} (hc : c ∈ f.components le) {a b : β}
    (ha : a ∈ c) : b ∈ c ↔ f.Together le a b := by
  refine ⟨fun hb => ⟨c, hc, ha, hb⟩, ?_⟩
  rintro ⟨c', hc', ha', hb⟩
  -- no element lies in two components
  by_cases hcc : c = c'
  · rwa [hcc]
  · have hsymm : Std.Symm (@List.Disjoint β) := ⟨fun _ _ h => h.symm⟩
    have hdisj := (List.nodup_flatten.1 hn).2.forall hc hc' hcc
    exact absurd ha' (hdisj ha)

end

end Forest

namespace WorkList

variable {calls calls' : List (Option α × Discovery α)} {le : α → α → Bool}

theorem nodup_components (calls : List (Option α × Discovery α)) (le : α → α → Bool) :
    ((ofCalls calls).forest.components le).flatten.Nodup :=
  ((sound_ofCalls calls).components_flatten_perm le).nodup_iff.2 (grown_settled calls).nodup

theorem mem_components_flatten {v : α} :
    v ∈ ((ofCalls calls).forest.components le).flatten ↔ v ∈ (ofCalls calls).forest.elements :=
  ((sound_ofCalls calls).components_flatten_perm le).mem_iff

theorem together_congr (h : Rooted calls) (h' : Rooted calls') (hc : ∀ c, c ∈ calls ↔ c ∈ calls') {a b : α}
    (hab : (ofCalls calls).forest.Together le a b) : (ofCalls calls').forest.Together le a b := by
  obtain ⟨c, hmem, ha, hb⟩ := hab
  have helement : ∀ {v}, v ∈ c → v ∈ (ofCalls calls).forest.elements ∧ v ∈ (ofCalls calls').forest.elements := by
    intro v hv
    have hin := mem_components_flatten.1 (List.mem_flatten.2 ⟨c, hmem, hv⟩)
    refine ⟨hin, ?_⟩
    rw [mem_elements_ofCalls] at hin ⊢
    simpa only [hc] using hin
  rw [together_iff_linked (helement ha).2 (helement hb).2, ← linked_congr h h' hc]
  exact (together_iff_linked (helement ha).1 (helement hb).1).1 ⟨c, hmem, ha, hb⟩

/-- Every component of a history is one of any history of the same calls, up to the order of its elements. -/
theorem exists_component_perm (h : Rooted calls) (h' : Rooted calls') (hc : ∀ c, c ∈ calls ↔ c ∈ calls') {c : List α}
    (hmem : c ∈ (ofCalls calls).forest.components le) :
    ∃ c' ∈ (ofCalls calls').forest.components le, c.Perm c' := by
  have hn := nodup_components calls le
  have hn' := nodup_components calls' le
  obtain ⟨a, ha⟩ := List.exists_mem_of_ne_nil c ((sound_ofCalls calls).ne_nil_of_mem_components hmem)
  obtain ⟨c', hmem', ha', -⟩ := together_congr h h' hc ⟨c, hmem, ha, ha⟩
  refine ⟨c', hmem', (List.perm_ext_iff_of_nodup (Forest.nodup_of_mem_components hn hmem)
    (Forest.nodup_of_mem_components hn' hmem')).2 fun b => ?_⟩
  rw [Forest.mem_iff_together hn hmem ha, Forest.mem_iff_together hn' hmem' ha']
  exact ⟨together_congr h h' hc, together_congr h' h fun c => (hc c).symm⟩

/-- The components of the forest of any calls are the classes of elements that chains of discoveries link. They are
nonempty, share no element, and cover all. Each is in order, and so are their first elements. When all sources have a
node, neither the order of the calls nor their repetition tells in the components. -/
theorem components_are_linked_classes (calls : List (Option Variable × Discovery Variable)) :
    let f := (ofCalls calls).forest
    let cs := f.components Variable.le
    ((∀ c ∈ cs, c ≠ []) ∧ cs.flatten.Nodup ∧ ∀ v, v ∈ cs.flatten ↔ v ∈ f.elements) ∧
      (∀ a ∈ f.elements, ∀ b ∈ f.elements,
        (∃ c ∈ cs, a ∈ c ∧ b ∈ c) ↔ Relation.EqvGen (Linked calls) a b) ∧
      (∀ c ∈ cs, c.Pairwise fun a b => (a.compare b).isLE) ∧
      (cs.Pairwise fun c c' => ∀ a ∈ c.head?, ∀ b ∈ c'.head?, (a.compare b).isLE) ∧
      ∀ calls', Rooted calls → Rooted calls' → (∀ c, c ∈ calls ↔ c ∈ calls') →
        (∀ c ∈ cs, ∃ c' ∈ (ofCalls calls').forest.components Variable.le, c.Perm c') ∧
          ∀ c' ∈ (ofCalls calls').forest.components Variable.le, ∃ c ∈ cs, c'.Perm c := by
  have htrans : ∀ a b c : Variable, a.le b → b.le c → a.le c := fun _ _ _ => Variable.le_trans
  refine ⟨⟨fun c hc => (sound_ofCalls calls).ne_nil_of_mem_components hc, nodup_components calls _,
    fun _ => mem_components_flatten⟩, fun a ha b hb => together_iff_linked ha hb, fun c hc => ?_, ?_,
    fun calls' h h' hc => ⟨fun c => exists_component_perm h h' hc,
      fun c' => exists_component_perm h' h fun c => (hc c).symm⟩⟩
  · obtain ⟨r, -, rfl⟩ := (Forest.mem_components _ c).1 hc
    exact pairwise_sortedBy htrans Variable.le_total r
  · have hsorted : (sortedBy (Forest.headLe Variable.le)
        ((ofCalls calls).forest.rawComponents.map (sortedBy Variable.le))).Pairwise _ :=
      pairwise_sortedBy (Forest.headLe_trans htrans) (Forest.headLe_total Variable.le_total) _
    refine hsorted.imp ?_
    intro c c' hle a ha b hb
    obtain ⟨cs, rfl⟩ := List.head?_eq_some_iff.1 ha
    obtain ⟨cs', rfl⟩ := List.head?_eq_some_iff.1 hb
    exact hle

def placed (n : Nat) : Variable := ⟨n, "v", n + 1, none, .var, none⟩

/-- Two seeds, and what the second leads to. -/
def seedsInOrder : List (Option Variable × Discovery Variable) :=
  [(none, ⟨[⟨placed 0, false⟩], false⟩), (none, ⟨[⟨placed 1, false⟩], false⟩),
    (some (placed 1), ⟨[⟨placed 2, false⟩, ⟨placed 0, true⟩], false⟩)]

/-- The same with the seeds the other way round, one of them given twice. -/
def seedsReversed : List (Option Variable × Discovery Variable) :=
  [(none, ⟨[⟨placed 1, false⟩], false⟩), (none, ⟨[⟨placed 0, false⟩], false⟩),
    (some (placed 1), ⟨[⟨placed 2, false⟩, ⟨placed 0, true⟩], false⟩), (none, ⟨[⟨placed 1, false⟩], false⟩)]

theorem rooted_seedsInOrder : Rooted seedsInOrder := by
  intro e he x hx
  unfold seedsInOrder at he
  simp only [insertions, List.mem_cons, List.not_mem_nil, or_false] at he
  rcases he with rfl | rfl | rfl <;> cases hx
  decide

theorem rooted_seedsReversed : Rooted seedsReversed := by
  intro e he x hx
  unfold seedsReversed at he
  simp only [insertions, List.mem_cons, List.not_mem_nil, or_false] at he
  rcases he with rfl | rfl | rfl | rfl <;> cases hx
  decide

theorem mem_seedsInOrder_iff (c : Option Variable × Discovery Variable) : c ∈ seedsInOrder ↔ c ∈ seedsReversed := by
  simp only [seedsInOrder, seedsReversed, List.mem_cons, List.not_mem_nil, or_false]
  tauto

/-- The three variables make one component whichever seed comes first. -/
theorem components_of_reversed_seeds :
    (∀ c ∈ (ofCalls seedsInOrder).forest.components Variable.le,
      ∃ c' ∈ (ofCalls seedsReversed).forest.components Variable.le, c.Perm c') ∧
    (∃ c ∈ (ofCalls seedsInOrder).forest.components Variable.le, placed 0 ∈ c ∧ placed 2 ∈ c) := by
  obtain ⟨-, hlinked, -, -, hcalls⟩ := components_are_linked_classes seedsInOrder
  refine ⟨(hcalls seedsReversed rooted_seedsInOrder rooted_seedsReversed mem_seedsInOrder_iff).1, ?_⟩
  refine (hlinked (placed 0) (by decide) (placed 2) (by decide)).2 (.rel _ _ ?_)
  exact ⟨_, List.mem_cons_of_mem _ (List.mem_cons_of_mem _ List.mem_cons_self), Or.inl (by decide),
    Or.inl (by decide)⟩

end WorkList

end NilFlow
