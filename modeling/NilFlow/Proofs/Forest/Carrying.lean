import NilFlow.Proofs.Forest.Removal
import NilFlow.Proofs.Forest.Traversal

/-!
# Trimming a layout

* `Forest.WellFormed.settle?_layout`: the pass from the last node to the first settles which nodes survive, since
  children come after their parents.
* `Forest.WellFormed.append?_layout`: the layout of a well-formed forest can be built up node by node.
* `Forest.WellFormed.trim?_layout`: trimming the layout of a well-formed forest trims the forest.
-/

namespace NilFlow

theorem anyM_eq_some {β : Type} {p : β → Option Bool} {q : β → Bool} : ∀ {l : List β}, (∀ x ∈ l, p x = some (q x)) →
    l.anyM p = some (l.any q)
  | [], _ => rfl
  | x :: l, h => by
    have ih : l.anyM p = some (l.any q) := anyM_eq_some fun y hy => h y (List.mem_cons_of_mem _ hy)
    rw [List.anyM, h x List.mem_cons_self, Option.bind_eq_bind, Option.bind_some, List.any_cons]
    cases q x with
    | true => rfl
    | false => exact ih

/-- What was carried over, with more links. -/
def Arena.Carried.linked {α : Type} (s : Arena.Carried α) (links : List (Nat × Nat)) : Arena.Carried α :=
  { s with arena := { s.arena with links := s.arena.links ++ links.map fun l => (some l.1, l.2) } }

theorem Arena.Carried.linked_nil {α : Type} (s : Arena.Carried α) : s.linked [] = s := by simp [linked]

theorem Arena.Carried.linked_linked {α : Type} (s : Arena.Carried α) (links links' : List (Nat × Nat)) :
    (s.linked links).linked links' = s.linked (links ++ links') := by simp [linked]

namespace Forest

variable {α : Type} [DecidableEq α] {f : Forest α} {nr : List α}

/-! ## Settling -/

def aliveAt (f : Forest α) (nr : List α) (i : Nat) : Bool := ((f.surviving nr).map (·.2)).contains i

theorem aliveAt_iff {i : Nat} : f.aliveAt nr i = true ↔ f.Alive nr i := List.contains_iff_mem

theorem aliveAt_eq_false_iff {i : Nat} : f.aliveAt nr i = false ↔ ¬ f.Alive nr i := by
  rw [← aliveAt_iff, Bool.not_eq_true]

/-- A node survives by what is settled behind it. -/
theorem WellFormed.survives?_layout (h : f.WellFormed) {i : Nat} {n : ForestNode α} (hn : f.nodes[i]? = some n)
    {alive : Nat → Bool} (halive : ∀ c, i < c → c < f.nodes.length → alive c = f.aliveAt nr c) :
    Arena.survives? (f.marks (f.dead nr)) (tabulated f.nodes.length alive) i ⟨n.content, n.parent, f.childrenOf i⟩ =
      some (f.aliveAt nr i) := by
  have hi := (List.getElem?_eq_some_iff.1 hn).1
  have hvar : f.varAt? i = n.var? := by
    unfold varAt?
    rw [hn]
    rfl
  have hchildren : (f.childrenOf i).anyM ((tabulated f.nodes.length alive)[·]?) =
      some ((f.childrenOf i).any (f.aliveAt nr)) := anyM_eq_some fun c hc => by
    have hp := mem_childrenOf.1 hc
    have hc := lt_length_of_parentAt? hp
    rw [getElem?_tabulated hc, halive c (h.parent_lt hp) hc]
  unfold Arena.survives? marks
  rw [getElem?_tabulated hi, Option.bind_eq_bind, Option.bind_some]
  by_cases hd : i ∈ f.dead nr
  · rw [if_pos (List.contains_iff_mem.2 hd)]
    exact congrArg some (aliveAt_eq_false_iff.2 fun ha => ha.not_dead hd).symm
  · rw [if_neg fun hc => hd (List.contains_iff_mem.1 hc)]
    rcases n with ⟨v | _, p⟩
    · exact congrArg some (aliveAt_iff.2 ((alive_iff_of_varAt? hvar).2 hd)).symm
    · refine hchildren.trans (congrArg some ?_)
      rw [Bool.eq_iff_iff, List.any_eq_true, aliveAt_iff]
      constructor
      · rintro ⟨c, hc, ha⟩
        have hp := mem_childrenOf.1 hc
        exact alive_of_child hi hd (aliveAt_iff.1 ha) hp (h.parent_lt hp)
      · intro ha
        obtain ⟨c, hc, hp⟩ := ha.exists_child hvar
        exact ⟨c, mem_childrenOf.2 hp, aliveAt_iff.2 hc⟩

/-- The pass from the last node to the first settles which nodes survive. -/
theorem WellFormed.settle?_layout (h : f.WellFormed) : ∀ (k : Nat) (alive : Nat → Bool), k ≤ f.nodes.length →
    (∀ i, k ≤ i → i < f.nodes.length → alive i = f.aliveAt nr i) →
    f.layout.settle? (f.marks (f.dead nr)) k (tabulated f.nodes.length alive) =
      some (tabulated f.nodes.length (f.aliveAt nr))
  | 0, alive, _, halive =>
    congrArg some (eq_tabulated (length_tabulated _ _) fun i hi => by
      rw [getElem?_tabulated hi, halive i (Nat.zero_le i) hi])
  | k + 1, alive, hk, halive => by
    have hn := List.getElem?_eq_getElem (Nat.lt_of_succ_le hk)
    have ih := h.settle?_layout k (fun j => if j = k then f.aliveAt nr k else alive j) (Nat.le_of_succ_le hk)
      fun i hki hi => by
        split_ifs with hik
        · rw [hik]
        · exact halive i (Nat.lt_of_le_of_ne hki (Ne.symm hik)) hi
    unfold Arena.settle?
    simp only [getElem?_layout, hn, Option.map_some, Option.bind_eq_bind, Option.bind_some,
      h.survives?_layout hn fun c hc => halive c hc, tabulated_put? (Nat.lt_of_succ_le hk)]
    exact ih

/-! ## Carrying nodes over -/

theorem surviving_eq_filter (f : Forest α) (nr : List α) :
    f.surviving nr = f.nodes.zipIdx.filter fun c => f.aliveAt nr c.2 := by
  have hnodup : f.nodes.zipIdx.Nodup := by
    refine List.Pairwise.imp ?_ (pairwise_zipIdx f.nodes)
    rintro c _ hlt rfl
    exact Nat.lt_irrefl c.2 hlt
  refine eq_filter_of_sublist (f.surviving_sublist nr) hnodup fun c hc => ?_
  rw [aliveAt_iff]
  refine ⟨fun ha => ?_, List.mem_map_of_mem⟩
  obtain ⟨n, hn, hni⟩ := ha.exists_mem
  rw [List.mem_zipIdx_iff_getElem?.1 hc] at hni
  cases hni
  exact hn

/-- The layout of a well-formed forest can be built up node by node. -/
theorem WellFormed.append?_layout {g : Forest α} (h : g.WellFormed) {pre post : List (ForestNode α)} {m : ForestNode α}
    (hg : g.nodes = pre ++ m :: post) :
    (layout ⟨pre, []⟩).append? m.content m.parent = some (layout ⟨pre ++ [m], []⟩) := by
  have hparent : ∀ {i}, i < pre.length → (⟨pre, []⟩ : Forest α).parentAt? i = g.parentAt? i := fun {i} hi => by
    unfold parentAt?
    rw [hg, List.getElem?_append_left hi]
  have hordered : (⟨pre, []⟩ : Forest α).Ordered := fun {i p} hp =>
    h.parent_lt (hparent (lt_length_of_parentAt? hp) ▸ hp)
  have hlt : ∀ p ∈ m.parent, p < pre.length := fun p hp => h.parent_lt (i := pre.length) (by
    unfold parentAt?
    rw [hg, List.getElem?_append_right (Nat.le_refl _), Nat.sub_self]
    exact hp)
  rcases m with ⟨v | _, parent⟩
  · rename_i b
    have hnew : v ∉ (⟨pre, []⟩ : Forest α).elements := by
      have hn := h.nodup
      unfold elements at hn
      rw [hg, List.filterMap_append, List.nodup_append] at hn
      exact fun hv => hn.2.2 v hv v (by simp [ForestNode.var?]) rfl
    exact hordered.place?_layout (c := ⟨v, b⟩) hlt hnew
  · exact hordered.push?_union hlt

/-- The survivors among the first nodes, as they stand in the trimmed forest. -/
def keptFrom (f : Forest α) (nr : List α) (nodes : List (ForestNode α)) (first : Nat) : List (ForestNode α) :=
  ((nodes.zipIdx first).filter fun c => f.aliveAt nr c.2).map fun c => f.moved nr c.1

/-- What is carried over from the first nodes of a forest. -/
def carriedFrom (f : Forest α) (nr : List α) (pre : List (ForestNode α)) : Arena.Carried α where
  arena := layout ⟨f.keptFrom nr pre 0, []⟩
  numbers := tabulated pre.length (f.renumbered? nr)
  removed := pre.zipIdx.filterMap fun (n, i) => if f.aliveAt nr i then none else n.var?

theorem nodes_trim (f : Forest α) (nr : List α) : (f.trim nr).nodes = f.keptFrom nr f.nodes 0 := by
  unfold keptFrom
  rw [← surviving_eq_filter]
  rfl

theorem keptFrom_append (f : Forest α) (nr : List α) (pre post : List (ForestNode α)) :
    f.keptFrom nr (pre ++ post) 0 = f.keptFrom nr pre 0 ++ f.keptFrom nr post pre.length := by
  unfold keptFrom
  rw [List.zipIdx_append, List.filter_append, List.map_append, Nat.zero_add]

theorem keptFrom_cons (f : Forest α) (nr : List α) (n : ForestNode α) (post : List (ForestNode α)) (i : Nat) :
    f.keptFrom nr (n :: post) i =
      if f.aliveAt nr i then f.moved nr n :: f.keptFrom nr post (i + 1) else f.keptFrom nr post (i + 1) := by
  unfold keptFrom
  rw [List.zipIdx_cons, List.filter_cons]
  split_ifs <;> rfl

section Step

variable {pre post : List (ForestNode α)} {n : ForestNode α}

/-- A survivor is numbered by the survivors before it. -/
theorem renumbered?_of_alive (hf : f.nodes = pre ++ n :: post) (ha : f.aliveAt nr pre.length = true) :
    f.renumbered? nr pre.length = some (f.keptFrom nr pre 0).length := by
  refine renumbered?_eq_some.2 ⟨n, ?_⟩
  have hlen : (f.keptFrom nr pre 0).length = (pre.zipIdx.filter fun c => f.aliveAt nr c.2).length := List.length_map _
  rw [surviving_eq_filter, hf, List.zipIdx_append, List.filter_append, Nat.zero_add, hlen,
    List.getElem?_append_right (Nat.le_refl _), Nat.sub_self, List.zipIdx_cons,
    List.filter_cons_of_pos (by simpa using ha)]
  rfl

theorem carriedFrom_snoc (f : Forest α) (nr : List α) (pre : List (ForestNode α)) (n : ForestNode α) :
    f.carriedFrom nr (pre ++ [n]) = if f.aliveAt nr pre.length then
      ⟨layout ⟨f.keptFrom nr pre 0 ++ [f.moved nr n], []⟩,
        (f.carriedFrom nr pre).numbers ++ [f.renumbered? nr pre.length], (f.carriedFrom nr pre).removed⟩
    else ⟨(f.carriedFrom nr pre).arena, (f.carriedFrom nr pre).numbers ++ [f.renumbered? nr pre.length],
      (f.carriedFrom nr pre).removed ++ n.var?.toList⟩ := by
  have hnumbers : tabulated (pre ++ [n]).length (f.renumbered? nr) =
      tabulated pre.length (f.renumbered? nr) ++ [f.renumbered? nr pre.length] := by
    unfold tabulated
    rw [List.length_append, List.length_singleton, List.range_succ, List.map_append, List.map_singleton]
  unfold carriedFrom
  rw [hnumbers, keptFrom_append, keptFrom_cons, List.zipIdx_append, List.filterMap_append, Nat.zero_add]
  cases ha : f.aliveAt nr pre.length with
  | true => simp [keptFrom, ha]
  | false => cases hv : n.var? <;> simp [keptFrom, ha, hv]

theorem WellFormed.carried_node? (h : f.WellFormed) (hf : f.nodes = pre ++ n :: post) (ids : List Nat) :
    Arena.Carried.node? (tabulated f.nodes.length (f.aliveAt nr)) (f.carriedFrom nr pre) ⟨n.content, n.parent, ids⟩ =
      some (f.carriedFrom nr (pre ++ [n])) := by
  have hlt : pre.length < f.nodes.length := by
    rw [hf]
    simp
  have hparent : (f.carriedFrom nr pre).parent? n.parent = some (f.moved nr n).parent := by
    show _ = some (n.parent.bind (f.renumbered? nr))
    cases hp : n.parent with
    | none => rfl
    | some p =>
      have hat : f.parentAt? pre.length = some p := by
        unfold parentAt?
        rw [hf, List.getElem?_append_right (Nat.le_refl _), Nat.sub_self]
        exact hp
      exact getElem?_tabulated (h.parent_lt hat)
  have halive : (tabulated f.nodes.length (f.aliveAt nr))[(f.carriedFrom nr pre).numbers.length]? =
      some (f.aliveAt nr pre.length) := by
    rw [show (f.carriedFrom nr pre).numbers.length = pre.length from length_tabulated _ _, getElem?_tabulated hlt]
  unfold Arena.Carried.node?
  rw [halive, carriedFrom_snoc, Option.bind_eq_bind, Option.bind_some]
  cases ha : f.aliveAt nr pre.length with
  | true =>
    have htrim : (f.trim nr).nodes = f.keptFrom nr pre 0 ++ f.moved nr n :: f.keptFrom nr post (pre.length + 1) := by
      rw [nodes_trim, hf, keptFrom_append, keptFrom_cons, if_pos ha]
    have happend := (h.trim nr).append?_layout htrim
    have hnumber := renumbered?_of_alive hf ha
    have hlen : (f.carriedFrom nr pre).arena.nodes.length = (f.keptFrom nr pre 0).length := length_layout _
    rw [if_pos rfl, if_pos rfl, hparent, Option.bind_eq_bind, Option.bind_some,
      show (f.carriedFrom nr pre).arena.append? n.content (f.moved nr n).parent = _ from happend, Option.bind_eq_bind,
      Option.bind_some, hnumber, hlen]
  | false =>
    have hnumber : f.renumbered? nr pre.length = none := by
      rw [Option.eq_none_iff_forall_not_mem]
      exact fun x hx => aliveAt_eq_false_iff.1 ha (renumbered?_isSome.1 ⟨x, hx⟩)
    simp only [hnumber, Bool.false_eq_true, if_false, var?_layout]

theorem WellFormed.foldlM_node? (h : f.WellFormed) : ∀ (post pre : List (ForestNode α)), f.nodes = pre ++ post →
    ((post.zipIdx pre.length).map fun (n, i) => (⟨n.content, n.parent, f.childrenOf i⟩ : ArenaNode α)).foldlM
      (Arena.Carried.node? (tabulated f.nodes.length (f.aliveAt nr))) (f.carriedFrom nr pre) =
        some (f.carriedFrom nr f.nodes)
  | [], pre, hf => by
    rw [hf, List.append_nil]
    rfl
  | n :: post, pre, hf => by
    have ih := h.foldlM_node? post (pre ++ [n]) (by rw [hf, List.append_assoc, List.singleton_append])
    rw [List.length_append, List.length_singleton] at ih
    rw [List.zipIdx_cons, List.map_cons, List.foldlM_cons, h.carried_node? hf, Option.bind_eq_bind, Option.bind_some]
    exact ih

end Step

/-! ## Carrying links over -/

/-- A link under new numbers, if both of its ends survive. -/
def movedLink? (f : Forest α) (nr : List α) (l : Nat × Nat) : Option (Nat × Nat) :=
  match f.renumbered? nr l.1, f.renumbered? nr l.2 with
  | some x, some y => some (x, y)
  | _, _ => none

theorem foldlM_link? : ∀ (links : List (Nat × Nat)) (s : Arena.Carried α),
    (∀ l ∈ links, l.1 < f.nodes.length ∧ l.2 < f.nodes.length) →
    s.numbers = tabulated f.nodes.length (f.renumbered? nr) →
    (links.map fun l => (some l.1, l.2)).foldlM Arena.Carried.link? s =
      some (s.linked (links.filterMap (f.movedLink? nr)))
  | [], s, _, _ => by
    rw [List.filterMap_nil, Arena.Carried.linked_nil]
    rfl
  | l :: links, s, hl, hs => by
    obtain ⟨h₁, h₂⟩ := hl l List.mem_cons_self
    have hstep : Arena.Carried.link? s (some l.1, l.2) = some (s.linked (f.movedLink? nr l).toList) := by
      unfold Arena.Carried.link? movedLink?
      simp only [hs, getElem?_tabulated h₁, getElem?_tabulated h₂, Option.bind_eq_bind, Option.bind_some]
      cases f.renumbered? nr l.1 <;> cases f.renumbered? nr l.2 <;> simp [Arena.Carried.linked, ← hs]
    have ih := foldlM_link? links (s.linked (f.movedLink? nr l).toList)
      (fun l hm => hl l (List.mem_cons_of_mem _ hm)) hs
    rw [List.map_cons, List.foldlM_cons, hstep, Option.bind_eq_bind, Option.bind_some, ih, Arena.Carried.linked_linked]
    cases hm : f.movedLink? nr l <;> simp [hm]

/-! ## Trimming -/

omit [DecidableEq α] in
theorem marks_congr {ids ids' : List Nat} (h : ∀ i, i ∈ ids ↔ i ∈ ids') : f.marks ids = f.marks ids' := by
  unfold marks
  congr 1
  funext i
  rw [Bool.eq_iff_iff, List.contains_iff_mem, List.contains_iff_mem, h]

/-- The search from the elements to remove marks the dead nodes, whatever the order of their nodes. -/
theorem WellFormed.reach?_dead (h : f.WellFormed) (nr : List α) :
    f.layout.reach? ((nr.eraseDups.filterMap f.layout.idOf?).mergeSort) = some (f.marks (f.dead nr)) := by
  have hmem : ∀ i, i ∈ (nr.eraseDups.filterMap f.idOf?).mergeSort ↔ i ∈ (nr.filterMap f.idOf?).eraseDups := fun i => by
    simp only [List.mem_mergeSort, List.mem_eraseDups, List.mem_filterMap]
  have hlt : ∀ i ∈ (nr.eraseDups.filterMap f.idOf?).mergeSort, i < f.nodes.length := fun i hi => by
    rw [List.mem_mergeSort, List.mem_filterMap] at hi
    obtain ⟨v, -, hv⟩ := hi
    exact lt_length_of_varAt? (varAt?_of_idOf? hv)
  rw [funext f.idOf?_layout, h.reach?_layout hlt]
  unfold dead
  refine congrArg some (marks_congr fun i => ?_)
  rw [h.mem_reach_iff, h.mem_reach_iff]
  simp only [hmem]

/-- Trimming a layout trims the forest, and removes the same elements. -/
theorem WellFormed.trim?_layout (h : f.WellFormed) (nr : List α) :
    f.layout.trim? nr = some ((f.trim nr).layout, f.trimmed nr) := by
  have hnone : List.replicate f.layout.nodes.length false = tabulated f.nodes.length fun _ => false := by
    rw [length_layout]
    exact eq_tabulated List.length_replicate fun i hi => by simp [hi]
  have hsettle : f.layout.settle? (f.marks (f.dead nr)) f.nodes.length (tabulated f.nodes.length fun _ => false) =
      some (tabulated f.nodes.length (f.aliveAt nr)) :=
    h.settle?_layout f.nodes.length _ (Nat.le_refl _) fun i hge hlt => absurd hlt (Nat.not_lt.2 hge)
  have hnodes : f.layout.nodes.foldlM (Arena.Carried.node? (tabulated f.nodes.length (f.aliveAt nr)))
      ⟨Arena.empty, [], []⟩ = some (f.carriedFrom nr f.nodes) := h.foldlM_node? f.nodes [] rfl
  have hlinks : f.layout.links.foldlM Arena.Carried.link? (f.carriedFrom nr f.nodes) =
      some ((f.carriedFrom nr f.nodes).linked (f.trim nr).links) := foldlM_link? f.links _ (fun l hl => by
    obtain ⟨v, hv⟩ := h.link_value hl
    exact ⟨h.link_lt hl, lt_length_of_varAt? hv⟩) rfl
  have harena : ((f.carriedFrom nr f.nodes).linked (f.trim nr).links).arena = (f.trim nr).layout := by
    have htrim : f.trim nr = ⟨f.keptFrom nr f.nodes 0, (f.trim nr).links⟩ := by rw [← nodes_trim]
    rw [htrim]
    rfl
  unfold Arena.trim?
  rw [h.reach?_dead, hnone, length_layout]
  simp only [Option.bind_eq_bind, Option.bind_some, hsettle, hnodes, hlinks, harena]
  rfl

end Forest

end NilFlow
