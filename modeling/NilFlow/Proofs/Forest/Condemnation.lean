import NilFlow.Proofs.Forest.Connection
import NilFlow.Proofs.Forest.Removal

/-!
# How far condemnation depends on the order of discovery

* `Forest.Grown.mem_descendants_iff_hangs`: what was discovered through an element is what hangs from it, one insertion
  after the other.
* `WorkList.SeedsAgree`: what hangs from an element through a call without source, in one of two histories, was
  discovered through it in the other as well.
* `WorkList.condemnation_agrees_iff`: histories of the same calls condemn the same elements exactly when their seeds
  agree.
* `WorkList.seedsAgree_of_single`: they do when every call without source gives one element.
* `WorkList.condemnation_depends_on_history`: in general they do not. A seed of two elements leaves them apart, but
  hangs the second from the first when it is given again.
-/

namespace NilFlow

variable {α : Type} [DecidableEq α]

namespace Forest

theorem WellFormed.mem_trimmed_iff_descendants {f : Forest α} (h : f.WellFormed) {nr : List α} {v : α} :
    v ∈ f.trimmed nr ↔ ∃ u ∈ nr, v ∈ f.descendants u := by
  rw [h.mem_trimmed_iff_reaches]
  simp only [h.mem_descendants_iff]

namespace Grown

variable {es : List (Insertion α)} {f : Forest α}

theorem reaches_of_hangs (h : Grown es f) {e : Insertion α} (he : e ∈ es) {u v : α} (hh : e.Hangs u v) :
    f.Reaches u v := by
  obtain ⟨hu, hv⟩ := hh
  cases hg : e.gathers with
  | true =>
    obtain ⟨hvars, hsource⟩ := h.leadsTo_top he hg
    obtain ⟨a, ha, htop⟩ := hsource u (Insertion.source_of_gathers hg hu)
    obtain ⟨b, hb, hlead⟩ := hvars v hv
    exact ⟨a, b, ha, hb, .tail (.single htop) hlead⟩
  | false =>
    obtain ⟨i, u', hi, hu', hvars⟩ := h.exists_hub he hg (Or.inr hv)
    obtain rfl := Option.some.inj (hu.symm.trans hu')
    obtain ⟨b, hb, rfl | hlead⟩ := hvars v hv
    · exact ⟨b, b, hi, hb, .refl⟩
    · exact ⟨i, b, hi, hb, .single hlead⟩

theorem mem_descendants_iff_hangs (h : Grown es f) {v x : α} : x ∈ f.descendants v ↔
    v ∈ f.elements ∧ Relation.ReflTransGen (fun a b => ∃ e ∈ es, e.Hangs a b) v x := by
  constructor
  · intro hx
    obtain ⟨i, hi, -⟩ := (mem_descendants v x).1 hx
    exact ⟨(f.mem_elements_iff v).2 ⟨i, varAt?_of_idOf? hi⟩,
      h.descendants_hang_induction .refl (fun e he u y hh hu => hu.tail ⟨e, he, hh⟩) hx⟩
  · rintro ⟨hv, hchain⟩
    induction hchain with
    | refl => exact self_mem_descendants hv
    | tail _ hstep ih =>
      obtain ⟨e, he, hh⟩ := hstep
      rw [h.wellFormed.mem_descendants_iff] at ih ⊢
      exact ih.trans h.nodup (h.reaches_of_hangs he hh)

end Grown

end Forest

namespace WorkList

variable {calls calls' : List (Option α × Discovery α)}

/-- What hangs from an element through a call without source was discovered through it in the other history. -/
def SeedsHang (calls calls' : List (Option α × Discovery α)) : Prop :=
  ∀ e ∈ (empty : WorkList α).insertions calls, e.source = none → ∀ u v, e.Hangs u v →
    v ∈ (ofCalls calls').forest.descendants u

/-- What hangs from an element through a call without source, in either history, was discovered through it in both. -/
def SeedsAgree (calls calls' : List (Option α × Discovery α)) : Prop := SeedsHang calls calls' ∧ SeedsHang calls' calls

theorem mem_descendants_of_call (h : Rooted calls) {u v : α} {d : Discovery α} (hc : (some u, d) ∈ calls)
    (hv : v ∈ d.vars) : v ∈ (ofCalls calls).forest.descendants u := by
  obtain ⟨e, he, hs, rfl⟩ := exists_insertion_of_mem calls empty hc
  rw [(wellFormed_ofCalls calls).mem_descendants_iff]
  exact (grown_ofCalls h).reaches_of_hangs he ⟨Insertion.holder?_of_source hs, hv⟩

theorem descendants_subset (h : Rooted calls) (h' : Rooted calls') (hsub : ∀ c ∈ calls, c ∈ calls')
    (hseeds : SeedsHang calls calls') {v x : α} (hx : x ∈ (ofCalls calls).forest.descendants v) :
    x ∈ (ofCalls calls').forest.descendants v := by
  obtain ⟨hv, hchain⟩ := (grown_ofCalls h).mem_descendants_iff_hangs.1 hx
  have hwf := wellFormed_ofCalls calls'
  induction hchain with
  | refl =>
    refine Forest.self_mem_descendants ?_
    obtain ⟨c, hc, hv⟩ := (mem_elements_ofCalls v).1 hv
    exact (mem_elements_ofCalls v).2 ⟨c, hsub c hc, hv⟩
  | @tail u y hchain hstep ih =>
    have ih := ih ((grown_ofCalls h).mem_descendants_iff_hangs.2 ⟨hv, hchain⟩)
    obtain ⟨e, he, hh⟩ := hstep
    have hy : y ∈ (ofCalls calls').forest.descendants u := by
      cases hs : e.source with
      | none => exact hseeds e he hs u y hh
      | some s =>
        -- the source of a call is the same in every history
        obtain rfl := Option.some.inj ((Insertion.holder?_of_source hs).symm.trans hh.1)
        exact mem_descendants_of_call h' (hs ▸ hsub _ (mem_insertions calls he).1) hh.2
    rw [hwf.mem_descendants_iff] at ih hy ⊢
    exact ih.trans hwf.nodup hy

theorem seedsHang_of_subset (h : Rooted calls)
    (hsub : ∀ v x, x ∈ (ofCalls calls).forest.descendants v → x ∈ (ofCalls calls').forest.descendants v) :
    SeedsHang calls calls' := by
  intro e he _ u v hh
  refine hsub u v ?_
  rw [(wellFormed_ofCalls calls).mem_descendants_iff]
  exact (grown_ofCalls h).reaches_of_hangs he hh

/-- Two histories of the same calls, in which all sources have a node, agree on what was discovered through each element
exactly when their seeds agree. The same goes for what trimming removes. -/
theorem condemnation_agrees_iff (h : Rooted calls) (h' : Rooted calls') (hc : ∀ c, c ∈ calls ↔ c ∈ calls') :
    ((∀ v x, x ∈ (ofCalls calls).forest.descendants v ↔ x ∈ (ofCalls calls').forest.descendants v) ↔
      SeedsAgree calls calls') ∧
    ((∀ nr x, x ∈ (ofCalls calls).forest.trimmed nr ↔ x ∈ (ofCalls calls').forest.trimmed nr) ↔
      SeedsAgree calls calls') := by
  have hdescendants :
      (∀ v x, x ∈ (ofCalls calls).forest.descendants v ↔ x ∈ (ofCalls calls').forest.descendants v) ↔
        SeedsAgree calls calls' := by
    constructor
    · intro hall
      exact ⟨seedsHang_of_subset h fun v x => (hall v x).1, seedsHang_of_subset h' fun v x => (hall v x).2⟩
    · rintro ⟨hseeds, hseeds'⟩ v x
      exact ⟨descendants_subset h h' (fun c => (hc c).1) hseeds, descendants_subset h' h (fun c => (hc c).2) hseeds'⟩
  refine ⟨hdescendants, ?_⟩
  rw [← hdescendants]
  simp only [(wellFormed_ofCalls _).mem_trimmed_iff_descendants]
  constructor
  · intro hall v x
    simpa using hall [v] x
  · intro hall nr x
    simp only [hall]

/-- Seeds of one element each hang nothing from another. -/
theorem seedsHang_of_single (hc : ∀ c ∈ calls, c ∈ calls')
    (hone : ∀ d, (none, d) ∈ calls → ∀ a ∈ d.vars, ∀ b ∈ d.vars, a = b) : SeedsHang calls calls' := by
  rintro e he hs u v ⟨hu, hv⟩
  have hmem := (mem_insertions calls he).1
  have huv : u = v := by
    rcases Insertion.holder?_cases hu with hu | ⟨-, hu⟩
    · rw [hs] at hu
      cases hu
    · exact hone _ (hs ▸ hmem) u hu v hv
  rw [huv]
  exact Forest.self_mem_descendants ((mem_elements_ofCalls v).2 ⟨_, hc _ hmem, hv⟩)

theorem seedsAgree_of_single (hc : ∀ c, c ∈ calls ↔ c ∈ calls')
    (hone : ∀ d, (none, d) ∈ calls → ∀ a ∈ d.vars, ∀ b ∈ d.vars, a = b) : SeedsAgree calls calls' :=
  ⟨seedsHang_of_single (fun c => (hc c).1) hone,
    seedsHang_of_single (fun c => (hc c).2) fun d hd => hone d ((hc _).2 hd)⟩

/-- Seeds of one variable each condemn the same in either order. -/
theorem condemnation_agrees_reversed_seeds : Rooted seedsInOrder ∧ Rooted seedsReversed ∧
    ∀ v x, x ∈ (ofCalls seedsInOrder).forest.descendants v ↔ x ∈ (ofCalls seedsReversed).forest.descendants v := by
  refine ⟨rooted_seedsInOrder, rooted_seedsReversed,
    (condemnation_agrees_iff rooted_seedsInOrder rooted_seedsReversed mem_seedsInOrder_iff).1.2
      (seedsAgree_of_single mem_seedsInOrder_iff ?_)⟩
  intro d hd
  simp only [seedsInOrder, List.mem_cons, List.not_mem_nil, or_false, Prod.mk.injEq, true_and, reduceCtorEq,
    false_and] at hd
  rcases hd with rfl | rfl <;> decide

/-- Two co-equal elements found together, from no source. -/
def jointSeed : Option Nat × Discovery Nat := (none, ⟨[⟨0, false⟩, ⟨1, false⟩], true⟩)

theorem rooted_of_no_source (hs : ∀ c ∈ calls, c.1 = none) : Rooted calls := by
  intro e he x hx
  have hnone := hs _ (mem_insertions calls he).1
  rw [show e.source = none from hnone] at hx
  cases hx

/-- Given once, a seed leaves its elements apart. Given again, it hangs the second from the first. -/
theorem condemnation_depends_on_history : ¬ ∀ calls calls' : List (Option Nat × Discovery Nat), Rooted calls →
    Rooted calls' → (∀ c, c ∈ calls ↔ c ∈ calls') →
      (∀ v x, x ∈ (ofCalls calls).forest.descendants v ↔ x ∈ (ofCalls calls').forest.descendants v) ∧
        ∀ nr x, x ∈ (ofCalls calls).forest.trimmed nr ↔ x ∈ (ofCalls calls').forest.trimmed nr := by
  intro hall
  have hroot : ∀ calls, (∀ c ∈ calls, c = jointSeed) → Rooted calls := fun calls hc =>
    rooted_of_no_source fun c hmem => by rw [hc c hmem]; rfl
  have hagree := (hall [jointSeed] [jointSeed, jointSeed] (hroot _ (by simp)) (hroot _ (by simp)) (by simp)).1 0 1
  have honce : (ofCalls [jointSeed]).forest.descendants 0 = [0] := by decide +kernel
  have htwice : (ofCalls [jointSeed, jointSeed]).forest.descendants 0 = [0, 1] := by decide +kernel
  rw [honce, htwice] at hagree
  revert hagree
  decide

end WorkList

end NilFlow
