import NilFlow.Proofs.Closure
import NilFlow.Proofs.Forest.Nodes
import Mathlib.Tactic.SplitIfs

/-!
# Trimmed forests

* `Forest.dead`: the nodes that some elements lead to; `Forest.dead_closed` says that no step leads out of them.
* `Forest.Alive`: the nodes that survive: values that are not dead, and unions with a surviving child.
* `Forest.mem_elements_trim`, `Forest.mem_trimmed`: an element survives or is removed with its node.
* `Forest.mem_joins_trim`: the trimmed forest keeps the joins between surviving nodes, under their new numbers.
-/

namespace NilFlow

namespace Forest

variable {α : Type}

/-! ## Survivors of a list of nodes -/

section Survivors

variable {dead : List Nat}

theorem survivors_sublist : ∀ (l : List (ForestNode α × Nat)), (survivors dead l).Sublist l
  | [] => .slnil
  | (n, i) :: rest => by
    unfold survivors
    dsimp only
    split_ifs
    · exact (survivors_sublist rest).cons _
    · exact (survivors_sublist rest).cons _
    · exact (survivors_sublist rest).cons_cons _

theorem not_mem_dead_of_mem_survivors {p : ForestNode α × Nat} :
    ∀ {l : List (ForestNode α × Nat)}, p ∈ survivors dead l → p.2 ∉ dead
  | [], h => absurd h (by simp [survivors])
  | (n, i) :: rest, h => by
    unfold survivors at h
    dsimp only at h
    split_ifs at h with hd
    · exact not_mem_dead_of_mem_survivors h
    · exact not_mem_dead_of_mem_survivors h
    · rcases List.mem_cons.1 h with rfl | h
      · simpa using hd
      · exact not_mem_dead_of_mem_survivors h

theorem mem_survivors_of_value {p : ForestNode α × Nat} (hv : p.1.isUnion = false) (hd : p.2 ∉ dead) :
    ∀ {l : List (ForestNode α × Nat)}, p ∈ l → p ∈ survivors dead l
  | [], h => absurd h (by simp)
  | (n, i) :: rest, h => by
    unfold survivors
    dsimp only
    rcases List.mem_cons.1 h with rfl | h
    · rw [if_neg (by simpa using hd), if_neg (by simp [hv])]
      exact List.mem_cons_self
    · have ih := mem_survivors_of_value hv hd h
      split_ifs
      · exact ih
      · exact ih
      · exact List.mem_cons_of_mem _ ih

theorem exists_child_of_mem_survivors {p : ForestNode α × Nat} (hu : p.1.isUnion = true) :
    ∀ {l : List (ForestNode α × Nat)}, p ∈ survivors dead l → ∃ c ∈ survivors dead l, c.1.parent = some p.2
  | [], h => absurd h (by simp [survivors])
  | (n, i) :: rest, h => by
    unfold survivors at h ⊢
    dsimp only at h ⊢
    split_ifs at h ⊢ with hd hc
    · exact exists_child_of_mem_survivors hu h
    · exact exists_child_of_mem_survivors hu h
    · rcases List.mem_cons.1 h with rfl | h
      · have hc : ((survivors dead rest).any fun c => c.1.parent = some i) = true := by simpa [hu] using hc
        obtain ⟨c, hc, hp⟩ := List.any_eq_true.1 hc
        exact ⟨c, List.mem_cons_of_mem _ hc, by simpa using hp⟩
      · obtain ⟨c, hc, hp⟩ := exists_child_of_mem_survivors hu h
        exact ⟨c, List.mem_cons_of_mem _ hc, hp⟩

/-- What survives of a tail survives of the whole, so a union survives by any surviving node behind it. -/
theorem mem_survivors_of_child {p c : ForestNode α × Nat} (hd : p.2 ∉ dead) (hp : c.1.parent = some p.2)
    {post : List (ForestNode α × Nat)} (hc : c ∈ survivors dead post) :
    ∀ (pre : List (ForestNode α × Nat)), p ∈ survivors dead (pre ++ p :: post)
  | [] => by
    rw [List.nil_append]
    unfold survivors
    dsimp only
    have hany : ((survivors dead post).any fun c => c.1.parent = some p.2) = true :=
      List.any_eq_true.2 ⟨c, hc, by simpa using hp⟩
    rw [if_neg (by simpa using hd), if_neg (by simp [hany])]
    exact List.mem_cons_self
  | (n, i) :: pre => by
    have ih := mem_survivors_of_child hd hp hc pre
    rw [List.cons_append]
    unfold survivors
    dsimp only
    split_ifs
    · exact ih
    · exact ih
    · exact List.mem_cons_of_mem _ ih

theorem mem_survivors_append {p : ForestNode α × Nat} {post : List (ForestNode α × Nat)} :
    ∀ (pre : List (ForestNode α × Nat)), p ∈ survivors dead (pre ++ post) → p ∈ pre ∨ p ∈ survivors dead post
  | [], h => Or.inr h
  | (n, i) :: pre, h => by
    rw [List.cons_append] at h
    unfold survivors at h
    dsimp only at h
    have ih : p ∈ survivors dead (pre ++ post) → p ∈ pre ∨ p ∈ survivors dead post := mem_survivors_append pre
    split_ifs at h
    · exact (ih h).imp_left (List.mem_cons_of_mem _)
    · exact (ih h).imp_left (List.mem_cons_of_mem _)
    · rcases List.mem_cons.1 h with rfl | h
      · exact Or.inl List.mem_cons_self
      · exact (ih h).imp_left (List.mem_cons_of_mem _)

theorem pairwise_zipIdx (nodes : List (ForestNode α)) : nodes.zipIdx.Pairwise (fun p q => p.2 < q.2) := by
  have h := List.pairwise_lt_range' (s := 0) (n := nodes.length)
  rw [← List.zipIdx_map_snd 0 nodes] at h
  exact List.pairwise_map.1 h

theorem filterMap_var?_zipIdx (f : Forest α) : f.nodes.zipIdx.filterMap (·.1.var?) = f.elements := by
  unfold elements
  conv_rhs => rw [← List.zipIdx_map_fst 0 f.nodes, List.filterMap_map]
  rfl

end Survivors

/-! ## Surviving nodes -/

variable [DecidableEq α] {f : Forest α} {removed : List α}

/-- The nodes that some elements lead to. -/
def dead (f : Forest α) (removed : List α) : List Nat := f.reach (removed.filterMap f.idOf?).eraseDups

/-- The nodes that survive without some elements. -/
def Alive (f : Forest α) (removed : List α) (i : Nat) : Prop := i ∈ (f.surviving removed).map (·.2)

theorem mem_dead_of_idOf? {v : α} {i : Nat} (hv : v ∈ removed) (hi : f.idOf? v = some i) : i ∈ f.dead removed := by
  refine start_mem_closure ?_
  rw [List.mem_eraseDups, List.mem_filterMap]
  exact ⟨v, hv, hi⟩

theorem dead_closed {a b : Nat} (ha : a ∈ f.dead removed) (hb : b < f.nodes.length) (h : f.leadsTo a b = true) :
    b ∈ f.dead removed :=
  closure_closed ha (List.mem_range.2 hb) h

/-- What was discovered through an element: the elements of the nodes that steps lead to from its own. -/
theorem mem_descendants (v x : α) :
    x ∈ f.descendants v ↔ ∃ i, f.idOf? v = some i ∧ ∃ j ∈ f.reach [i], f.varAt? j = some x := by
  unfold descendants
  cases hi : f.idOf? v with
  | none => simp
  | some i =>
    have he : x ∈ f.elementsAt (f.reach [i]) ↔ ∃ j ∈ f.reach [i], f.varAt? j = some x := by
      unfold elementsAt varAt?
      rw [List.mem_filterMap]
      constructor
      · rintro ⟨⟨n, j⟩, hn, hv⟩
        rw [List.mem_zipIdx_iff_getElem?] at hn
        dsimp only at hv
        split at hv
        · rename_i hj
          exact ⟨j, by simpa using hj, by rw [hn]; exact hv⟩
        · exact absurd hv (by simp)
      · rintro ⟨j, hj, hv⟩
        obtain ⟨n, hn, hv⟩ := Option.bind_eq_some_iff.1 hv
        refine ⟨(n, j), List.mem_zipIdx_iff_getElem?.2 hn, ?_⟩
        dsimp only
        rw [if_pos (by simpa using hj)]
        exact hv
    simpa using he

theorem self_mem_descendants {v : α} (h : v ∈ f.elements) : v ∈ f.descendants v := by
  obtain ⟨i, hi⟩ := exists_idOf? h
  exact (mem_descendants v v).2 ⟨i, hi, i, start_mem_closure List.mem_cons_self, varAt?_of_idOf? hi⟩

theorem surviving_sublist (f : Forest α) (removed : List α) : (f.surviving removed).Sublist f.nodes.zipIdx :=
  survivors_sublist _

theorem getElem?_of_mem_surviving {p : ForestNode α × Nat} (h : p ∈ f.surviving removed) :
    f.nodes[p.2]? = some p.1 :=
  List.mem_zipIdx_iff_getElem?.1 ((f.surviving_sublist removed).mem h)

theorem Alive.exists_mem {i : Nat} (h : f.Alive removed i) :
    ∃ n, (n, i) ∈ f.surviving removed ∧ f.nodes[i]? = some n := by
  obtain ⟨⟨n, j⟩, hp, rfl⟩ := List.mem_map.1 h
  exact ⟨n, hp, getElem?_of_mem_surviving hp⟩

theorem Alive.lt {i : Nat} (h : f.Alive removed i) : i < f.nodes.length := by
  obtain ⟨n, -, hn⟩ := h.exists_mem
  exact (List.getElem?_eq_some_iff.1 hn).1

theorem Alive.not_dead {i : Nat} (h : f.Alive removed i) : i ∉ f.dead removed := by
  obtain ⟨n, hp, -⟩ := h.exists_mem
  exact not_mem_dead_of_mem_survivors hp

theorem alive_iff_of_varAt? {i : Nat} {v : α} (h : f.varAt? i = some v) :
    f.Alive removed i ↔ i ∉ f.dead removed := by
  refine ⟨Alive.not_dead, fun hd => ?_⟩
  obtain ⟨n, hn, hv⟩ := Option.bind_eq_some_iff.1 h
  refine List.mem_map.2 ⟨(n, i), mem_survivors_of_value ?_ hd (List.mem_zipIdx_iff_getElem?.2 hn), rfl⟩
  unfold ForestNode.isUnion
  rw [hv]
  rfl

theorem Alive.exists_child {i : Nat} (h : f.Alive removed i) (hu : f.varAt? i = none) :
    ∃ c, f.Alive removed c ∧ f.parentAt? c = some i := by
  obtain ⟨n, hp, hn⟩ := h.exists_mem
  have hunion : n.isUnion = true := by
    unfold varAt? at hu
    rw [hn] at hu
    unfold ForestNode.isUnion
    rw [Option.isNone_iff_eq_none]
    exact hu
  obtain ⟨⟨m, c⟩, hc, hpar⟩ := exists_child_of_mem_survivors hunion hp
  refine ⟨c, List.mem_map.2 ⟨(m, c), hc, rfl⟩, ?_⟩
  unfold parentAt?
  rw [getElem?_of_mem_surviving hc]
  exact hpar

theorem alive_of_child {i c : Nat} (hi : i < f.nodes.length) (hd : i ∉ f.dead removed) (hc : f.Alive removed c)
    (hp : f.parentAt? c = some i) (hlt : i < c) : f.Alive removed i := by
  obtain ⟨m, hm, hcm⟩ := hc.exists_mem
  have hp : m.parent = some i := by
    unfold parentAt? at hp
    rwa [hcm] at hp
  have hmem : (f.nodes.get ⟨i, hi⟩, i) ∈ f.nodes.zipIdx :=
    List.mem_zipIdx_iff_getElem?.2 (List.getElem?_eq_getElem hi)
  obtain ⟨pre, post, hl⟩ := List.append_of_mem hmem
  refine List.mem_map.2 ⟨(f.nodes.get ⟨i, hi⟩, i), ?_, rfl⟩
  unfold surviving at hm ⊢
  rw [hl] at hm ⊢
  refine mem_survivors_of_child (c := (m, c)) hd hp ?_ pre
  -- the child is numbered higher, so it stands behind
  have hpw := pairwise_zipIdx f.nodes
  rw [hl, List.pairwise_append] at hpw
  rcases mem_survivors_append pre hm with hpre | hpost
  · have := hpw.2.2 _ hpre _ List.mem_cons_self
    exact absurd this (Nat.lt_asymm hlt)
  · rcases mem_survivors_append [_] hpost with hself | hpost
    · rw [List.mem_singleton] at hself
      have : c = i := congrArg Prod.snd hself
      omega
    · exact hpost

/-! ## The trimmed forest -/

theorem nodup_surviving (f : Forest α) (removed : List α) : ((f.surviving removed).map (·.2)).Nodup := by
  refine List.Nodup.sublist ((f.surviving_sublist removed).map _) ?_
  exact List.pairwise_map.2 ((pairwise_zipIdx f.nodes).imp Nat.ne_of_lt)

theorem elements_trim (f : Forest α) (removed : List α) :
    (f.trim removed).elements = (f.surviving removed).filterMap (·.1.var?) := by
  unfold trim restrict elements
  rw [List.filterMap_map]
  rfl

theorem elements_trim_sublist (f : Forest α) (removed : List α) :
    (f.trim removed).elements.Sublist f.elements := by
  have h := (f.surviving_sublist removed).filterMap (·.1.var?)
  rwa [← elements_trim, filterMap_var?_zipIdx] at h

theorem mem_elements_trim (v : α) :
    v ∈ (f.trim removed).elements ↔ ∃ i, f.Alive removed i ∧ f.varAt? i = some v := by
  rw [elements_trim, List.mem_filterMap]
  constructor
  · rintro ⟨⟨n, i⟩, hp, hv⟩
    refine ⟨i, List.mem_map_of_mem hp, ?_⟩
    unfold varAt?
    rw [getElem?_of_mem_surviving hp]
    exact hv
  · rintro ⟨i, ha, hv⟩
    obtain ⟨n, hp, hn⟩ := ha.exists_mem
    refine ⟨(n, i), hp, ?_⟩
    unfold varAt? at hv
    rwa [hn] at hv

theorem mem_trimmed (v : α) : v ∈ f.trimmed removed ↔ ∃ i, ¬ f.Alive removed i ∧ f.varAt? i = some v := by
  unfold trimmed varAt?
  simp only [List.mem_filterMap]
  constructor
  · rintro ⟨⟨n, i⟩, hp, hv⟩
    rw [List.mem_zipIdx_iff_getElem?] at hp
    split_ifs at hv with ha
    exact ⟨i, fun h => ha (List.contains_iff_mem.2 h), by rw [hp]; exact hv⟩
  · rintro ⟨i, ha, hv⟩
    obtain ⟨n, hn, hv⟩ := Option.bind_eq_some_iff.1 hv
    refine ⟨(n, i), List.mem_zipIdx_iff_getElem?.2 hn, ?_⟩
    rw [if_neg fun h => ha (List.contains_iff_mem.1 h)]
    exact hv

theorem mem_trimmed_iff (hn : f.elements.Nodup) (v : α) :
    v ∈ f.trimmed removed ↔ v ∈ f.elements ∧ v ∉ (f.trim removed).elements := by
  rw [mem_trimmed, mem_elements_iff, mem_elements_trim]
  constructor
  · rintro ⟨i, ha, hv⟩
    refine ⟨⟨i, hv⟩, ?_⟩
    rintro ⟨j, hj, hv'⟩
    exact ha (varAt?_inj hn hv' hv ▸ hj)
  · rintro ⟨⟨i, hv⟩, h⟩
    exact ⟨i, fun ha => h ⟨i, ha, hv⟩, hv⟩

theorem not_mem_elements_trim (hn : f.elements.Nodup) {v : α} (hv : v ∈ removed) :
    v ∉ (f.trim removed).elements := by
  rw [mem_elements_trim]
  rintro ⟨i, ha, hi⟩
  exact ha.not_dead (mem_dead_of_idOf? hv ((idOf?_eq_some_iff hn v i).2 hi))

/-! ## New numbers -/

/-- The number of a node in the trimmed forest. -/
def renumbered? (f : Forest α) (removed : List α) (i : Nat) : Option Nat :=
  ((f.surviving removed).map (·.2)).idxOf? i

theorem renumbered?_eq_some {i x : Nat} :
    f.renumbered? removed i = some x ↔ ∃ n, (f.surviving removed)[x]? = some (n, i) := by
  unfold renumbered?
  rw [List.idxOf?_eq_some_iff]
  constructor
  · rintro ⟨h, hi, -⟩
    rw [List.length_map] at h
    rw [List.getElem_map] at hi
    refine ⟨((f.surviving removed).get ⟨x, h⟩).1, ?_⟩
    rw [List.getElem?_eq_getElem h]
    exact congrArg some (Prod.ext rfl hi)
  · rintro ⟨n, hn⟩
    obtain ⟨h, hi⟩ := List.getElem?_eq_some_iff.1 hn
    have hx : x < ((f.surviving removed).map (·.2)).length := by rwa [List.length_map]
    refine ⟨hx, by rw [List.getElem_map, hi], fun j hj hji => ?_⟩
    -- numbers do not repeat, so none before it is the same
    have hne := List.pairwise_iff_getElem.1 (f.nodup_surviving removed) j x (by omega) hx hj
    exact hne (by rw [hji, List.getElem_map, hi])

theorem renumbered?_isSome {i : Nat} : (∃ x, f.renumbered? removed i = some x) ↔ f.Alive removed i := by
  unfold renumbered? Alive
  rw [← List.isSome_idxOf?, Option.isSome_iff_exists]

theorem renumbered?_inj {i j x : Nat} (hi : f.renumbered? removed i = some x) (hj : f.renumbered? removed j = some x) :
    i = j := by
  obtain ⟨n, hn⟩ := renumbered?_eq_some.1 hi
  obtain ⟨m, hm⟩ := renumbered?_eq_some.1 hj
  rw [hn] at hm
  exact congrArg (fun p => p.2) (Option.some.inj hm)

/-- Survivors keep their order. -/
theorem renumbered?_mono {i j x y : Nat} (hi : f.renumbered? removed i = some x)
    (hj : f.renumbered? removed j = some y) (hij : i < j) : x < y := by
  obtain ⟨n, hn⟩ := renumbered?_eq_some.1 hi
  obtain ⟨m, hm⟩ := renumbered?_eq_some.1 hj
  obtain ⟨hx, hn⟩ := List.getElem?_eq_some_iff.1 hn
  obtain ⟨hy, hm⟩ := List.getElem?_eq_some_iff.1 hm
  have hp := (pairwise_zipIdx f.nodes).sublist (f.surviving_sublist removed)
  rcases Nat.lt_trichotomy x y with h | rfl | h
  · exact h
  · rw [hn] at hm
    obtain ⟨-, rfl⟩ := Prod.mk.inj hm
    exact absurd hij (Nat.lt_irrefl i)
  · have hlt := List.pairwise_iff_getElem.1 hp y x hy hx h
    rw [hn, hm] at hlt
    exact absurd hij (Nat.lt_asymm hlt)

theorem renumbered?_lt {i x : Nat} (h : f.renumbered? removed i = some x) : x < (f.trim removed).nodes.length := by
  obtain ⟨n, hn⟩ := renumbered?_eq_some.1 h
  unfold trim restrict
  rw [List.length_map]
  exact (List.getElem?_eq_some_iff.1 hn).1

def moved (f : Forest α) (removed : List α) (n : ForestNode α) : ForestNode α :=
  { n with parent := n.parent.bind (f.renumbered? removed) }

theorem getElem?_trim {i x : Nat} (h : f.renumbered? removed i = some x) :
    (f.trim removed).nodes[x]? = (f.nodes[i]?).map (f.moved removed) := by
  obtain ⟨n, hn⟩ := renumbered?_eq_some.1 h
  unfold trim restrict
  rw [List.getElem?_map, hn, getElem?_of_mem_surviving (List.mem_of_getElem? hn)]
  rfl

theorem varAt?_trim {i x : Nat} (h : f.renumbered? removed i = some x) :
    (f.trim removed).varAt? x = f.varAt? i := by
  unfold varAt?
  rw [getElem?_trim h]
  cases f.nodes[i]? <;> rfl

theorem parentAt?_trim {i x : Nat} (h : f.renumbered? removed i = some x) :
    (f.trim removed).parentAt? x = (f.parentAt? i).bind (f.renumbered? removed) := by
  unfold parentAt?
  rw [getElem?_trim h]
  cases f.nodes[i]? <;> rfl

theorem exists_renumbered {x : Nat} (h : x < (f.trim removed).nodes.length) :
    ∃ i, f.renumbered? removed i = some x := by
  unfold trim restrict at h
  rw [List.length_map] at h
  exact ⟨((f.surviving removed).get ⟨x, h⟩).2, renumbered?_eq_some.2 ⟨_, List.getElem?_eq_getElem h⟩⟩

theorem mem_links_trim {x y : Nat} : (x, y) ∈ (f.trim removed).links ↔
    ∃ a b, f.renumbered? removed a = some x ∧ f.renumbered? removed b = some y ∧ (a, b) ∈ f.links := by
  constructor
  · intro h
    obtain ⟨⟨a, b⟩, hab, h⟩ := List.mem_filterMap.1 h
    dsimp only at h
    split at h
    · rename_i x' y' hx hy
      obtain ⟨rfl, rfl⟩ := Prod.mk.inj (Option.some.inj h)
      exact ⟨a, b, hx, hy, hab⟩
    · exact absurd h (by simp)
  · rintro ⟨a, b, ha, hb, h⟩
    refine List.mem_filterMap.2 ⟨(a, b), h, ?_⟩
    unfold renumbered? at ha hb
    simp only [ha, hb]

theorem mem_joins_trim {x y : Nat} : (x, y) ∈ (f.trim removed).joins ↔
    ∃ a b, f.renumbered? removed a = some x ∧ f.renumbered? removed b = some y ∧ (a, b) ∈ f.joins := by
  simp only [mem_joins, mem_links_trim]
  constructor
  · rintro (h | ⟨a, b, ha, hb, h⟩)
    · obtain ⟨a, ha⟩ := exists_renumbered (lt_length_of_parentAt? h)
      rw [parentAt?_trim ha] at h
      obtain ⟨p, hp, hy⟩ := Option.bind_eq_some_iff.1 h
      exact ⟨a, p, ha, hy, Or.inl hp⟩
    · exact ⟨a, b, ha, hb, Or.inr h⟩
  · rintro ⟨a, b, ha, hb, h | h⟩
    · left
      rw [parentAt?_trim ha, h]
      exact hb
    · exact Or.inr ⟨a, b, ha, hb, h⟩

end Forest

end NilFlow
