import Mathlib.Data.List.Basic
import Mathlib.Data.List.Perm.Subperm
import NilFlow.Proofs.Forest.Insertion
import NilFlow.Proofs.Forest.Trimming

/-!
# Well-formed forests

* `Forest.WellFormed`: what a forest keeps up however it came about: the order of its nodes, unions with children, links
  that lead to values.
* `Forest.Grown.wellFormed`, `Forest.WellFormed.trim`: insertions and trimming keep it up.
* `Forest.Reaches`: children and links lead from one element to another; `Forest.WellFormed.mem_descendants_iff` and
  `Forest.WellFormed.mem_trimmed_iff_reaches` say so of what was discovered through an element, and of what trimming
  removes.
* `Forest.WellFormed.trim_eq_self`: where no element is to be removed, trimming changes nothing.
-/

namespace NilFlow

namespace Forest

variable {α : Type}

/-- The elements are distinct. A node hangs from an earlier one, and a union from a value. Every union has a child. A
link joins nodes and leads to a value. -/
structure WellFormed (f : Forest α) : Prop where
  nodup : f.elements.Nodup
  parent_lt : ∀ {i p}, f.parentAt? i = some p → p < i
  parent_value : ∀ {i p}, f.parentAt? i = some p → f.varAt? i = none → ∃ v, f.varAt? p = some v
  exists_child : ∀ {i}, i < f.nodes.length → f.varAt? i = none → ∃ c, f.parentAt? c = some i
  link_lt : ∀ {a b}, (a, b) ∈ f.links → a < f.nodes.length
  link_value : ∀ {a b}, (a, b) ∈ f.links → ∃ v, f.varAt? b = some v

theorem WellFormed.lt_of_leadsTo {f : Forest α} (h : f.WellFormed) {a b : Nat} (hab : f.leadsTo a b = true) :
    a < f.nodes.length ∧ b < f.nodes.length := by
  rcases (f.leadsTo_iff a b).1 hab with hp | hl
  · have hb := lt_length_of_parentAt? hp
    exact ⟨Nat.lt_trans (h.parent_lt hp) hb, hb⟩
  · obtain ⟨v, hv⟩ := h.link_value hl
    exact ⟨h.link_lt hl, lt_length_of_varAt? hv⟩

/-- No step leads out of a forest, so what some nodes reach is what steps lead to from them. -/
theorem WellFormed.mem_reach_iff {f : Forest α} (h : f.WellFormed) {start : List Nat} {j : Nat} :
    j ∈ f.reach start ↔ ∃ i ∈ start, Relation.ReflTransGen (fun a b => f.leadsTo a b = true) i j := by
  unfold reach
  rw [mem_closure, reach_iff]
  constructor
  · rintro ⟨i, hi, hreach⟩
    exact ⟨i, hi, Relation.ReflTransGen.mono (fun _ _ hab => hab.2) _ _ hreach⟩
  · rintro ⟨i, hi, hreach⟩
    refine ⟨i, hi, Relation.ReflTransGen.mono (fun _ _ hab => ?_) _ _ hreach⟩
    exact ⟨List.mem_range.2 (h.lt_of_leadsTo hab).2, hab⟩

/-- Children and links lead from the node of one element to that of another. -/
def Reaches (f : Forest α) (u v : α) : Prop := ∃ i j, f.varAt? i = some u ∧ f.varAt? j = some v ∧
  Relation.ReflTransGen (fun a b => f.leadsTo a b = true) i j

theorem Reaches.trans {f : Forest α} (hn : f.elements.Nodup) {u v x : α} (huv : f.Reaches u v) (hvx : f.Reaches v x) :
    f.Reaches u x := by
  obtain ⟨i, j, hu, hv, hij⟩ := huv
  obtain ⟨j', k, hv', hx, hjk⟩ := hvx
  obtain rfl := varAt?_inj hn hv hv'
  exact ⟨i, k, hu, hx, hij.trans hjk⟩

theorem wellFormed_empty : (empty : Forest α).WellFormed where
  nodup := List.nodup_nil
  parent_lt := by simp [empty, parentAt?]
  parent_value := by simp [empty, parentAt?]
  exists_child := by simp [empty]
  link_lt := by simp [empty]
  link_value := by simp [empty]

end Forest

/-! ## Insertions -/

variable {α : Type} [DecidableEq α]

namespace Insertion

variable {e : Insertion α}

theorem parent?_lt {p : Nat} (h : e.parent? = some p) : p < e.top := by
  obtain ⟨x, -, hx⟩ := Option.bind_eq_some_iff.1 h
  exact Forest.lt_length_of_varAt? (Forest.varAt?_of_idOf? hx)

theorem anchor?_lt {a : Nat} (h : e.anchor? = some a) : a < e.first := by
  unfold anchor? at h
  unfold first
  split_ifs at h ⊢ with hg
  · cases h
    exact Nat.lt_succ_self _
  · exact parent?_lt h

theorem known_lt {b : Nat} (h : b ∈ e.known) : b < e.top := by
  obtain ⟨v, -, hv⟩ := mem_known.1 h
  exact Forest.lt_length_of_varAt? (Forest.varAt?_of_idOf? hv)

theorem top_le_first (e : Insertion α) : e.top ≤ e.first := Nat.le_add_right _ _

/-- What known elements are linked from is a node by then. -/
theorem hub?_lt {a : Nat} (h : e.hub? = some a) : a < e.after.nodes.length := by
  have htop := e.top_le_first
  rw [e.length_after]
  unfold hub? at h
  rcases Option.or_eq_some_iff.1 h with h | ⟨-, h⟩
  · rcases Option.or_eq_some_iff.1 h with h | ⟨-, h⟩
    · have := anchor?_lt h
      omega
    · split_ifs at h with hf
      cases h
      have := List.length_pos_iff.2 (fun hn => hf (List.isEmpty_iff.2 hn))
      omega
  · have := known_lt (List.mem_of_head? h)
    omega

theorem wellFormed_after (h : e.before.WellFormed) : e.after.WellFormed where
  nodup := by
    rw [show e.after.elements = e.before.elements ++ e.created from Forest.elements_add _ _ _, List.nodup_append]
    refine ⟨h.nodup, e.before.nodup_created e.discovery, ?_⟩
    rintro v hv _ hv' rfl
    exact Forest.not_mem_of_mem_created hv' hv
  parent_lt := by
    intro i p hp
    rcases parentAt?_after_iff.1 hp with hold | ⟨-, rfl, hparent⟩ | ⟨ha, -, j, -, rfl⟩
    · exact h.parent_lt hold
    · exact parent?_lt hparent
    · exact Nat.lt_of_lt_of_le (anchor?_lt ha) (Nat.le_add_right _ _)
  parent_value := by
    intro i p hp hi
    rcases parentAt?_after_iff.1 hp with hold | ⟨-, rfl, hparent⟩ | ⟨-, c, j, hc, rfl⟩
    · rw [varAt?_after_old (Forest.lt_length_of_parentAt? hold)] at hi
      obtain ⟨v, hv⟩ := h.parent_value hold hi
      exact ⟨v, varAt?_after hv⟩
    · obtain ⟨x, -, hx⟩ := Option.bind_eq_some_iff.1 hparent
      exact ⟨x, varAt?_after (Forest.varAt?_of_idOf? hx)⟩
    · rw [e.varAt?_after_fresh, hc] at hi
      cases hi
  exists_child := by
    intro i hlt hi
    rcases e.node_cases i with hold | ⟨hg, rfl⟩ | ⟨j, rfl⟩
    · rw [varAt?_after_old hold] at hi
      obtain ⟨c, hc⟩ := h.exists_child hold hi
      exact ⟨c, parentAt?_after_iff.2 (Or.inl hc)⟩
    · -- a union gathers at least two new elements
      have hlen : 1 < e.fresh.length := by
        unfold gathers Forest.gathers at hg
        exact of_decide_eq_true (Bool.and_eq_true_iff.1 hg).1
      have hc := List.getElem?_eq_getElem (Nat.lt_trans Nat.zero_lt_one hlen)
      exact ⟨e.first + 0, parentAt?_after_iff.2 (Or.inr (Or.inr ⟨if_pos hg, _, 0, hc, rfl⟩))⟩
    · rw [e.length_after] at hlt
      rw [e.varAt?_after_fresh, List.getElem?_eq_getElem (Nat.lt_of_add_lt_add_left hlt)] at hi
      cases hi
  link_lt := by
    intro a b hl
    rcases mem_links_after.1 hl with hl | ⟨ha, -, -⟩
    · exact Nat.lt_of_lt_of_le (h.link_lt hl) e.extends_after.length
    · exact hub?_lt ha
  link_value := by
    intro a b hl
    rcases mem_links_after.1 hl with hl | ⟨-, hb, -⟩
    · obtain ⟨v, hv⟩ := h.link_value hl
      exact ⟨v, varAt?_after hv⟩
    · obtain ⟨v, -, hv⟩ := mem_known.1 hb
      exact ⟨v, varAt?_after (Forest.varAt?_of_idOf? hv)⟩

end Insertion

namespace Forest

variable {f : Forest α} {nr : List α}

theorem Grown.wellFormed {es : List (Insertion α)} (h : Grown es f) : f.WellFormed := by
  induction h with
  | empty => exact wellFormed_empty
  | @add es f _ source d _ ih => exact Insertion.wellFormed_after (e := ⟨f, source, d⟩) ih

namespace WellFormed

/-! ## Trimming -/

theorem alive_parent (h : f.WellFormed) {i p : Nat} (hi : f.Alive nr i) (hp : f.parentAt? i = some p) :
    f.Alive nr p := by
  have hlead : f.leadsTo p i = true := (f.leadsTo_iff p i).2 (Or.inl hp)
  exact alive_of_child (h.lt_of_leadsTo hlead).1 (fun hd => hi.not_dead (dead_closed hd hi.lt hlead)) hi hp
    (h.parent_lt hp)

theorem trim (h : f.WellFormed) (nr : List α) : (f.trim nr).WellFormed where
  nodup := h.nodup.sublist (f.elements_trim_sublist nr)
  parent_lt := by
    intro x y hy
    obtain ⟨i, hi⟩ := exists_renumbered (lt_length_of_parentAt? hy)
    rw [parentAt?_trim hi] at hy
    obtain ⟨p, hp, hy⟩ := Option.bind_eq_some_iff.1 hy
    exact renumbered?_mono hy hi (h.parent_lt hp)
  parent_value := by
    intro x y hy hx
    obtain ⟨i, hi⟩ := exists_renumbered (lt_length_of_parentAt? hy)
    rw [parentAt?_trim hi] at hy
    rw [varAt?_trim hi] at hx
    obtain ⟨p, hp, hy⟩ := Option.bind_eq_some_iff.1 hy
    obtain ⟨v, hv⟩ := h.parent_value hp hx
    exact ⟨v, (varAt?_trim hy).trans hv⟩
  exists_child := by
    intro x hlt hx
    obtain ⟨i, hi⟩ := exists_renumbered hlt
    rw [varAt?_trim hi] at hx
    obtain ⟨c, hc, hp⟩ := (renumbered?_isSome.1 ⟨x, hi⟩).exists_child hx
    obtain ⟨z, hz⟩ := renumbered?_isSome.2 hc
    refine ⟨z, ?_⟩
    rw [parentAt?_trim hz, hp]
    exact hi
  link_lt := by
    intro x y hl
    obtain ⟨a, b, ha, -, -⟩ := mem_links_trim.1 hl
    exact renumbered?_lt ha
  link_value := by
    intro x y hl
    obtain ⟨a, b, -, hb, hl⟩ := mem_links_trim.1 hl
    obtain ⟨v, hv⟩ := h.link_value hl
    exact ⟨v, (varAt?_trim hb).trans hv⟩

/-! ## Nothing to remove -/

theorem alive_of_not_mem (h : f.WellFormed) (hnr : ∀ v ∈ nr, v ∉ f.elements) {i : Nat} (hi : i < f.nodes.length) :
    f.Alive nr i := by
  have hstart : nr.filterMap f.idOf? = [] := by
    rw [List.filterMap_eq_nil_iff]
    intro v hv
    cases hid : f.idOf? v with
    | none => rfl
    | some j => exact absurd ((f.mem_elements_iff v).2 ⟨j, varAt?_of_idOf? hid⟩) (hnr v hv)
  have hdead : ∀ j, j ∉ f.dead nr := by
    intro j hj
    unfold dead at hj
    rw [hstart] at hj
    obtain ⟨s, hs, -⟩ := reach_iff.1 ((mem_closure _ _ _).1 hj)
    simp at hs
  have hvalue : ∀ {j v}, f.varAt? j = some v → f.Alive nr j := fun hv => (alive_iff_of_varAt? hv).2 (hdead _)
  cases hv : f.varAt? i with
  | some v => exact hvalue hv
  | none =>
    obtain ⟨c, hc⟩ := h.exists_child hi hv
    -- the child of a union is a value
    cases hcv : f.varAt? c with
    | some v => exact alive_of_child hi (hdead i) (hvalue hcv) hc (h.parent_lt hc)
    | none =>
      obtain ⟨v, hpv⟩ := h.parent_value hc hcv
      rw [hv] at hpv
      cases hpv

theorem surviving_of_not_mem (h : f.WellFormed) (hnr : ∀ v ∈ nr, v ∉ f.elements) :
    f.surviving nr = f.nodes.zipIdx := by
  refine (f.surviving_sublist nr).eq_of_length_le ?_
  have hsub : List.range f.nodes.length ⊆ (f.surviving nr).map (·.2) := fun i hi =>
    h.alive_of_not_mem hnr (List.mem_range.1 hi)
  have hle := (List.subperm_of_subset List.nodup_range hsub).length_le
  rwa [List.length_map, List.length_range, ← List.length_zipIdx (l := f.nodes) (i := 0)] at hle

/-- Where no element is to be removed, nodes keep their numbers. -/
theorem renumbered?_of_not_mem (h : f.WellFormed) (hnr : ∀ v ∈ nr, v ∉ f.elements) {i : Nat}
    (hi : i < f.nodes.length) : f.renumbered? nr i = some i := by
  refine renumbered?_eq_some.2 ⟨f.nodes[i], ?_⟩
  rw [h.surviving_of_not_mem hnr, List.getElem?_zipIdx, List.getElem?_eq_getElem hi]
  simp

theorem nodes_trim_of_not_mem (h : f.WellFormed) (hnr : ∀ v ∈ nr, v ∉ f.elements) : (f.trim nr).nodes = f.nodes := by
  refine List.ext_getElem? fun i => ?_
  rcases Nat.lt_or_ge i f.nodes.length with hi | hi
  · rw [getElem?_trim (h.renumbered?_of_not_mem hnr hi)]
    cases hn : f.nodes[i]? with
    | none => rfl
    | some n =>
      have hparent : n.parent.bind (f.renumbered? nr) = n.parent := by
        cases hp : n.parent with
        | none => rfl
        | some p =>
          have hp : f.parentAt? i = some p := by
            unfold parentAt?
            rw [hn]
            exact hp
          exact h.renumbered?_of_not_mem hnr (Nat.lt_trans (h.parent_lt hp) hi)
      unfold moved
      rw [Option.map_some, hparent]
  · have hlen : (f.trim nr).nodes.length = f.nodes.length := by
      unfold Forest.trim restrict
      rw [h.surviving_of_not_mem hnr, List.length_map, List.length_zipIdx]
    rw [List.getElem?_eq_none hi, List.getElem?_eq_none (hlen ▸ hi)]

theorem links_trim_of_not_mem (h : f.WellFormed) (hnr : ∀ v ∈ nr, v ∉ f.elements) : (f.trim nr).links = f.links := by
  unfold Forest.trim restrict
  conv_rhs => rw [← List.filterMap_some (l := f.links)]
  refine List.filterMap_congr fun l hl => ?_
  obtain ⟨v, hv⟩ := h.link_value hl
  have ha := h.renumbered?_of_not_mem hnr (h.link_lt hl)
  have hb := h.renumbered?_of_not_mem hnr (lt_length_of_varAt? hv)
  unfold renumbered? at ha hb
  simp only [ha, hb]

/-- Where no element is to be removed, trimming changes nothing. -/
theorem trim_eq_self (h : f.WellFormed) (hnr : ∀ v ∈ nr, v ∉ f.elements) : f.trim nr = f := by
  have hnodes := h.nodes_trim_of_not_mem hnr
  have hlinks := h.links_trim_of_not_mem hnr
  cases f
  exact congr (congrArg Forest.mk hnodes) hlinks

end WellFormed

/-! ## Reaching elements -/

namespace WellFormed

theorem mem_descendants_iff (h : f.WellFormed) {v x : α} : x ∈ f.descendants v ↔ f.Reaches v x := by
  rw [mem_descendants]
  constructor
  · rintro ⟨i, hi, j, hj, hx⟩
    obtain ⟨s, hs, hreach⟩ := h.mem_reach_iff.1 hj
    obtain rfl := List.mem_singleton.1 hs
    exact ⟨s, j, varAt?_of_idOf? hi, hx, hreach⟩
  · rintro ⟨i, j, hv, hx, hreach⟩
    exact ⟨i, (idOf?_eq_some_iff h.nodup v i).2 hv, j,
      h.mem_reach_iff.2 ⟨i, List.mem_singleton_self i, hreach⟩, hx⟩

theorem mem_dead_iff (h : f.WellFormed) {v : α} {j : Nat} (hv : f.varAt? j = some v) :
    j ∈ f.dead nr ↔ ∃ u ∈ nr, f.Reaches u v := by
  unfold dead
  rw [h.mem_reach_iff]
  simp only [List.mem_eraseDups, List.mem_filterMap]
  constructor
  · rintro ⟨i, ⟨u, hu, hi⟩, hreach⟩
    exact ⟨u, hu, i, j, varAt?_of_idOf? hi, hv, hreach⟩
  · rintro ⟨u, hu, i, j', hi, hj', hreach⟩
    obtain rfl := varAt?_inj h.nodup hj' hv
    exact ⟨i, ⟨u, hu, (idOf?_eq_some_iff h.nodup u i).2 hi⟩, hreach⟩

theorem mem_trimmed_iff_reaches (h : f.WellFormed) {v : α} : v ∈ f.trimmed nr ↔ ∃ u ∈ nr, f.Reaches u v := by
  rw [mem_trimmed]
  constructor
  · rintro ⟨j, ha, hv⟩
    rw [alive_iff_of_varAt? hv, not_not] at ha
    exact (h.mem_dead_iff hv).1 ha
  · rintro ⟨u, hu, i, j, hi, hv, hreach⟩
    refine ⟨j, fun ha => ?_, hv⟩
    exact ha.not_dead ((h.mem_dead_iff hv).2 ⟨u, hu, i, j, hi, hv, hreach⟩)

end WellFormed

end Forest

end NilFlow
