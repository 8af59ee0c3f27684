import NilFlow.Proofs.Forest.Insertion
import NilFlow.Proofs.Forest.Trimming

/-!
# Who led to whom

* `Insertion.Leads`: the source of an insertion leads to its candidates; without source, they lead to each other.
  `Insertion.Hangs` is narrower: one element that leads to the candidates.
* `Forest.Grown.descendants_induction`, `Forest.Grown.removed_induction`: what elements pass on to those they lead to is
  had by all that was discovered through them, or is removed with them.
* `Forest.Grown.removed_of_source`: a removed source takes all candidates of its insertions along.
-/

namespace NilFlow

variable {α : Type} [DecidableEq α]

namespace Insertion

/-- One element leads to another: it is the source of the insertion that has the other as a candidate, or both are
candidates of an insertion without source. -/
def Leads (e : Insertion α) (u v : α) : Prop :=
  v ∈ e.discovery.vars ∧ (e.source = some u ∨ e.source = none ∧ u ∈ e.discovery.vars)

theorem Hangs.leads {e : Insertion α} {u v : α} (h : e.Hangs u v) : e.Leads u v := ⟨h.2, holder?_cases h.1⟩

end Insertion

namespace Forest

namespace Grown

variable {es : List (Insertion α)} {f : Forest α} {start : List Nat} {nr : List α} {x v : α} {P : α → Prop}

/-! ## Reached elements -/

/-- A node holds an element with a property, or it is the union of an insertion whose source has the property. -/
def Carries (es : List (Insertion α)) (f : Forest α) (P : α → Prop) (i : Nat) : Prop :=
  (∃ x, f.varAt? i = some x ∧ P x) ∨
    ∃ e ∈ es, e.gathers = true ∧ i = e.top ∧ ∃ u, e.source = some u ∧ P u

theorem carries_iff (h : Grown es f) {i : Nat} (hx : f.varAt? i = some x) : Carries es f P i ↔ P x := by
  constructor
  · rintro (⟨y, hy, hp⟩ | ⟨e, he, hg, rfl, -⟩)
    · rwa [Option.some.inj (hx.symm.trans hy)]
    · rw [h.varAt?_top he hg] at hx
      exact absurd hx (by simp)
  · exact fun hp => Or.inl ⟨x, hx, hp⟩

theorem carries_step (h : Grown es f) (hp : ∀ e ∈ es, ∀ u x, e.Hangs u x → P u → P x) {a b : Nat}
    (ha : Carries es f P a) (hab : f.leadsTo a b = true) : Carries es f P b := by
  obtain ⟨e, he, hadds⟩ := h.exists_adds hab
  rcases h.adds_cases he hadds with ⟨hg, hb, u, hs, hu⟩ | ⟨x, hx, hvar, ⟨hg, rfl⟩ | ⟨-, u, hm, hu⟩⟩
  · exact Or.inr ⟨e, he, hg, hb, u, hs, (h.carries_iff hu).1 ha⟩
  · rw [h.carries_iff hvar]
    rcases ha with ⟨y, hy, -⟩ | ⟨e', he', hg', htop, u, hs, hu⟩
    · rw [h.varAt?_top he hg] at hy
      exact absurd hy (by simp)
    · obtain rfl := h.top_inj he he' hg hg' htop
      exact hp e he u x ⟨Insertion.holder?_of_source hs, hx⟩ hu
  · rw [h.carries_iff hvar]
    exact hp e he u x ⟨hm, hx⟩ ((h.carries_iff hu).1 ha)

/-- What elements pass on to those that hang from them is passed on along the steps from their nodes. -/
theorem reach_induction (h : Grown es f) (hs : ∀ i ∈ start, ∃ v, f.varAt? i = some v ∧ P v)
    (hp : ∀ e ∈ es, ∀ u x, e.Hangs u x → P u → P x) {i : Nat} (hi : i ∈ f.reach start)
    (hx : f.varAt? i = some x) : P x := by
  refine (h.carries_iff hx).1 ?_
  clear hx
  induction (mem_closure _ _ i).1 hi with
  | @start j hj => exact Or.inl (hs j hj)
  | next ha _ hab ih => exact h.carries_step hp (ih ((mem_closure _ _ _).2 ha)) hab

/-- What an element passes on to those that hang from it, and they in turn, all have that was discovered through it. -/
theorem descendants_hang_induction (h : Grown es f) (hv : P v) (hp : ∀ e ∈ es, ∀ u x, e.Hangs u x → P u → P x)
    (hx : x ∈ f.descendants v) : P x := by
  obtain ⟨i, hi, j, hj, hvar⟩ := (mem_descendants v x).1 hx
  refine h.reach_induction (fun a (ha : a ∈ [i]) => ?_) hp hj hvar
  rw [List.mem_singleton.1 ha]
  exact ⟨v, varAt?_of_idOf? hi, hv⟩

/-- What an element passes on to those it leads to, and they in turn, all have that was discovered through it. -/
theorem descendants_induction (h : Grown es f) (hv : P v) (hp : ∀ e ∈ es, ∀ u x, e.Leads u x → P u → P x)
    (hx : x ∈ f.descendants v) : P x :=
  h.descendants_hang_induction hv (fun e he u x hh => hp e he u x hh.leads) hx

/-! ## Removed elements -/

theorem not_mem_trim_iff (h : Grown es f) {i : Nat} (hi : f.varAt? i = some x) :
    x ∉ (f.trim nr).elements ↔ i ∈ f.dead nr := by
  rw [mem_elements_trim]
  constructor
  · intro hx
    by_contra hd
    exact hx ⟨i, (alive_iff_of_varAt? hi).2 hd, hi⟩
  · rintro hd ⟨j, hj, hvar⟩
    rw [varAt?_inj h.nodup hvar hi] at hj
    exact hj.not_dead hd

/-- What the elements to remove pass on to those they lead to, all removed ones have. -/
theorem removed_induction (h : Grown es f) (hnr : ∀ v ∈ nr, P v) (hp : ∀ e ∈ es, ∀ u x, e.Leads u x → P u → P x)
    (hx : x ∈ f.elements) (hr : x ∉ (f.trim nr).elements) : P x := by
  obtain ⟨i, hi⟩ := (f.mem_elements_iff x).1 hx
  refine h.reach_induction (fun a ha => ?_) (fun e he u x hh => hp e he u x hh.leads)
    ((h.not_mem_trim_iff hi).1 hr) hi
  rw [List.mem_eraseDups, List.mem_filterMap] at ha
  obtain ⟨v, hv, hid⟩ := ha
  exact ⟨v, varAt?_of_idOf? hid, hnr v hv⟩

theorem removed_of_source (h : Grown es f) {e : Insertion α} (he : e ∈ es) (hs : e.source = some x)
    (hr : x ∉ (f.trim nr).elements) (hv : v ∈ e.discovery.vars) : v ∉ (f.trim nr).elements := by
  cases hg : e.gathers with
  | true =>
    obtain ⟨hvars, hsource⟩ := h.leadsTo_top he hg
    obtain ⟨a, ha, htop⟩ := hsource x hs
    obtain ⟨b, hb, hlead⟩ := hvars v hv
    have hdead := dead_closed ((h.not_mem_trim_iff ha).1 hr) (h.top_lt he hg) htop
    exact (h.not_mem_trim_iff hb).2 (dead_closed hdead (lt_length_of_varAt? hb) hlead)
  | false =>
    obtain ⟨a, u, ha, hu, hvars⟩ := h.exists_hub he hg (Or.inl hs)
    obtain rfl := Option.some.inj ((Insertion.holder?_of_source hs).symm.trans hu)
    have hdead := (h.not_mem_trim_iff ha).1 hr
    obtain ⟨b, hb, rfl | hlead⟩ := hvars v hv
    · exact (h.not_mem_trim_iff hb).2 hdead
    · exact (h.not_mem_trim_iff hb).2 (dead_closed hdead (lt_length_of_varAt? hb) hlead)

theorem exists_created (h : Grown es f) (hx : x ∈ f.elements) : ∃ e ∈ es, x ∈ e.created := by
  induction h with
  | empty => exact absurd hx (by simp [Forest.empty, elements])
  | @add es f _ source d _ ih =>
    rw [elements_add] at hx
    rcases List.mem_append.1 hx with hx | hx
    · obtain ⟨e, he, hc⟩ := ih hx
      exact ⟨e, List.mem_append_left _ he, hc⟩
    · exact ⟨⟨f, source, d⟩, List.mem_append_right _ List.mem_cons_self, hx⟩

/-- What holds of the candidates of every insertion whose source it holds of, holds of all elements. -/
theorem elements_induction (h : Grown es f)
    (hp : ∀ e ∈ es, ∀ x ∈ e.discovery.vars, (∀ y, e.source = some y → P y) → P x) : ∀ x ∈ f.elements, P x := by
  induction h with
  | empty => exact fun x hx => absurd hx (by simp [Forest.empty, elements])
  | @add es f _ source d hs ih =>
    have ih := ih fun e he => hp e (List.mem_append_left _ he)
    intro x hx
    rw [elements_add] at hx
    rcases List.mem_append.1 hx with hx | hx
    · exact ih x hx
    · exact hp ⟨f, source, d⟩ (List.mem_append_right _ List.mem_cons_self) x (mem_vars_of_mem_created hx)
        fun y hy => ih y (hs y hy)

end Grown

end Forest

end NilFlow
