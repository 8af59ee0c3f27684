import NilFlow.Proofs.Forest.Layout

/-!
# Traversing a layout

* `tabulated`: a list by the numbers of its entries; `tabulated_put?` changes one.
* `Arena.search?_spec`: a search marks what its marked nodes lead to, provided that nothing leads out of the arena.
* `Forest.WellFormed.reach?_layout`: in the layout of a well-formed forest, it marks what is reachable in the forest.
* `Forest.WellFormed.parent?_layout`: an element's parent is found there as in the forest.
-/

namespace NilFlow

/-! ## Tabulated lists -/

/-- The values at the numbers below a bound. -/
def tabulated {β : Type} (n : Nat) (g : Nat → β) : List β := (List.range n).map g

section Tabulated

variable {β : Type} {n : Nat} {g : Nat → β}

@[simp] theorem length_tabulated (n : Nat) (g : Nat → β) : (tabulated n g).length = n := by simp [tabulated]

theorem getElem?_tabulated {i : Nat} (hi : i < n) : (tabulated n g)[i]? = some (g i) := by simp [tabulated, hi]

theorem eq_tabulated {l : List β} (hl : l.length = n) (h : ∀ i < n, l[i]? = some (g i)) : l = tabulated n g := by
  refine List.ext_getElem? fun i => ?_
  rcases Nat.lt_or_ge i n with hi | hi
  · rw [h i hi, getElem?_tabulated hi]
  · rw [List.getElem?_eq_none (hl ▸ hi), List.getElem?_eq_none (by simpa using hi)]

theorem tabulated_put? {i : Nat} (hi : i < n) (b : β) :
    put? (tabulated n g) i b = some (tabulated n fun j => if j = i then b else g j) := by
  unfold put?
  rw [if_pos (by simpa using hi)]
  refine congrArg some (eq_tabulated (by simp) fun j hj => ?_)
  rw [List.getElem?_set, getElem?_tabulated hj, length_tabulated]
  by_cases hij : i = j
  · rw [if_pos hij, if_pos hi, if_pos hij.symm]
  · rw [if_neg hij, if_neg (Ne.symm hij)]

end Tabulated

/-! ## Links -/

/-- The targets of the links from a node. -/
def targetsOf (links : List (Nat × Nat)) (i : Nat) : List Nat := (links.filter (·.1 = i)).map (·.2)

theorem mem_targetsOf {links : List (Nat × Nat)} {i j : Nat} : j ∈ targetsOf links i ↔ (i, j) ∈ links := by
  unfold targetsOf
  simp

theorem foldlM_enlist? {n : Nat} : ∀ (links done : List (Nat × Nat)), (∀ l ∈ links, l.1 < n) →
    (links.map fun l => (some l.1, l.2)).foldlM Arena.enlist? (tabulated n (targetsOf done)) =
      some (tabulated n (targetsOf (done ++ links)))
  | [], done, _ => by
    rw [List.append_nil]
    rfl
  | l :: links, done, h => by
    have hl := h l List.mem_cons_self
    have hstep : Arena.enlist? (tabulated n (targetsOf done)) (some l.1, l.2) =
        some (tabulated n (targetsOf (done ++ [l]))) := by
      unfold Arena.enlist?
      simp only [Option.bind_eq_bind, Option.bind_some, getElem?_tabulated hl, tabulated_put? hl]
      congr 2
      funext i
      unfold targetsOf
      rw [List.filter_append, List.map_append, List.filter_singleton]
      by_cases hi : i = l.1 <;> simp [hi, eq_comm]
    rw [List.map_cons, List.foldlM_cons, hstep, Option.bind_eq_bind, Option.bind_some,
      foldlM_enlist? links (done ++ [l]) fun l' hl' => h l' (List.mem_cons_of_mem _ hl'), List.append_assoc,
      List.singleton_append]

/-! ## Searching -/

/-- What queueing some nodes does: it marks them, and queues those that were not marked. -/
structure Enqueued (queue : List Nat) (marks : List Bool) (ids queue' : List Nat) (marks' : List Bool) : Prop where
  length : marks'.length = marks.length
  marked : ∀ j, marks'[j]? = some true ↔ marks[j]? = some true ∨ j ∈ ids
  queued : ∀ j, j ∈ queue' ↔ j ∈ queue ∨ (j ∈ ids ∧ marks[j]? ≠ some true)

theorem Enqueued.skip {ids queue queue' : List Nat} {marks marks' : List Bool} {i : Nat} (hi : marks[i]? = some true)
    (h : Enqueued queue marks ids queue' marks') : Enqueued queue marks (i :: ids) queue' marks' := by
  refine ⟨h.length, fun j => ?_, fun j => ?_⟩
  · rw [h.marked, List.mem_cons]
    constructor
    · exact Or.imp_right Or.inr
    · rintro (hj | rfl | hj)
      · exact Or.inl hj
      · exact Or.inl hi
      · exact Or.inr hj
  · rw [h.queued, List.mem_cons]
    constructor
    · exact Or.imp_right fun hj => ⟨Or.inr hj.1, hj.2⟩
    · rintro (hj | ⟨rfl | hj, hno⟩)
      · exact Or.inl hj
      · exact absurd hi hno
      · exact Or.inr ⟨hj, hno⟩

theorem Enqueued.push {ids queue queue' : List Nat} {marks marks' : List Bool} {i : Nat} (hi : i < marks.length)
    (hnew : marks[i]? ≠ some true) (h : Enqueued (queue ++ [i]) (marks.set i true) ids queue' marks') :
    Enqueued queue marks (i :: ids) queue' marks' := by
  have hset : ∀ j, (marks.set i true)[j]? = some true ↔ marks[j]? = some true ∨ j = i := fun j => by
    rw [List.getElem?_set]
    by_cases hj : i = j
    · simp [hj.symm, hi]
    · simp [hj, Ne.symm hj]
  refine ⟨h.length.trans List.length_set, fun j => ?_, fun j => ?_⟩
  · rw [h.marked, hset, List.mem_cons, or_assoc]
  · rw [h.queued, Ne, hset, List.mem_append, List.mem_singleton, List.mem_cons, not_or]
    constructor
    · rintro ((hj | rfl) | ⟨hj, hno, -⟩)
      · exact Or.inl hj
      · exact Or.inr ⟨Or.inl rfl, hnew⟩
      · exact Or.inr ⟨Or.inr hj, hno⟩
    · rintro (hj | ⟨rfl | hj, hno⟩)
      · exact Or.inl (Or.inl hj)
      · exact Or.inl (Or.inr rfl)
      · by_cases hji : j = i
        · exact Or.inl (Or.inr hji)
        · exact Or.inr ⟨hj, hno, hji⟩

theorem exists_enqueue? : ∀ (ids queue : List Nat) (marks : List Bool), (∀ j ∈ ids, j < marks.length) →
    ∃ queue' marks', Arena.enqueue? queue marks ids = some (queue', marks') ∧ Enqueued queue marks ids queue' marks'
  | [], queue, marks, _ => ⟨queue, marks, rfl, rfl, by simp, by simp⟩
  | i :: ids, queue, marks, h => by
    have hi := h i List.mem_cons_self
    have hids : ∀ j ∈ ids, j < marks.length := fun j hj => h j (List.mem_cons_of_mem _ hj)
    have hmark := List.getElem?_eq_getElem hi
    unfold Arena.enqueue?
    rw [hmark]
    cases hm : marks[i] with
    | true =>
      obtain ⟨queue', marks', he, hspec⟩ := exists_enqueue? ids queue marks hids
      exact ⟨queue', marks', he, hspec.skip (by rw [hmark, hm])⟩
    | false =>
      obtain ⟨queue', marks', he, hspec⟩ := exists_enqueue? ids (queue ++ [i]) (marks.set i true) (by simpa using hids)
      exact ⟨queue', marks', he, hspec.push hi (by simp [hmark, hm])⟩

/-- The state of a search: what is queued is marked, and what the other marked nodes lead to is marked. -/
structure Searching (next : Nat → List Nat) (n : Nat) (queue : List Nat) (marks : List Bool) : Prop where
  length : marks.length = n
  queued : ∀ i ∈ queue, marks[i]? = some true
  closed : ∀ i, marks[i]? = some true → i ∉ queue → ∀ j ∈ next i, marks[j]? = some true

/-- The marked nodes lead to a node. -/
def MarkedLeads (next : Nat → List Nat) (marks : List Bool) (j : Nat) : Prop :=
  ∃ i, marks[i]? = some true ∧ Relation.ReflTransGen (fun i j => j ∈ next i) i j

section Searching

variable {next : Nat → List Nat} {n i : Nat} {queue queue' : List Nat} {marks marks' : List Bool}

theorem Searching.lt (h : Searching next n (i :: queue) marks) : i < n := by
  obtain ⟨hlt, -⟩ := List.getElem?_eq_some_iff.1 (h.queued i List.mem_cons_self)
  exact h.length ▸ hlt

/-- Visiting the first of the queue keeps the state of the search. -/
theorem Searching.visit (h : Searching next n (i :: queue) marks) (he : Enqueued queue marks (next i) queue' marks') :
    Searching next n queue' marks' where
  length := he.length.trans h.length
  queued j hj := (he.marked j).2 <| ((he.queued j).1 hj).imp (fun hj => h.queued j (List.mem_cons_of_mem _ hj)) And.left
  closed k hk hkq j hj := by
    rw [he.queued, not_or] at hkq
    have hold : marks[k]? = some true :=
      ((he.marked k).1 hk).elim id fun hnew => by_contra fun hno => hkq.2 ⟨hnew, hno⟩
    rw [he.marked]
    by_cases hki : k = i
    · exact Or.inr (hki ▸ hj)
    · exact Or.inl (h.closed k hold (fun hmem => hkq.1 ((List.mem_cons.1 hmem).resolve_left hki)) j hj)

/-- Visiting the first of the queue marks nothing that the marked nodes do not lead to. -/
theorem Searching.markedLeads_visit (h : Searching next n (i :: queue) marks)
    (he : Enqueued queue marks (next i) queue' marks') (j : Nat) :
    MarkedLeads next marks' j ↔ MarkedLeads next marks j := by
  constructor
  · rintro ⟨k, hk, hkj⟩
    rcases (he.marked k).1 hk with hold | hnew
    · exact ⟨k, hold, hkj⟩
    · exact ⟨i, h.queued i List.mem_cons_self, .head hnew hkj⟩
  · rintro ⟨k, hk, hkj⟩
    exact ⟨k, (he.marked k).2 (Or.inl hk), hkj⟩

/-- Without a queue, the marked nodes lead to marked ones only. -/
theorem Searching.markedLeads_nil (h : Searching next n [] marks) (j : Nat) :
    marks[j]? = some true ↔ MarkedLeads next marks j := by
  refine ⟨fun hj => ⟨j, hj, .refl⟩, ?_⟩
  rintro ⟨i, hi, hij⟩
  induction hij with
  | refl => exact hi
  | tail _ hstep ih => exact h.closed _ ih List.not_mem_nil _ hstep

end Searching

namespace Arena

variable {α : Type} {a : Arena α} {out : List (List Nat)} {next : Nat → List Nat} {n : Nat}

theorem search?_cons {i : Nat} {queue : List Nat} {marks : List Bool} {m : ArenaNode α} {ids queue' : List Nat}
    {marks' : List Bool} (hm : a.nodes[i]? = some m) (hids : out[i]? = some ids)
    (he : enqueue? queue marks (m.children ++ ids) = some (queue', marks')) :
    a.search? out (i :: queue) marks = a.search? out queue' marks' := by
  rw [search?]
  simp only [hm, hids]
  split
  · rename_i he'
    rw [he] at he'
    cases he'
    rfl
  · rename_i he'
    rw [he] at he'
    cases he'

/-- A search ends with what its marked nodes lead to, provided that nothing leads out of the arena. -/
theorem search?_spec (hget : ∀ i < n, ∃ m ids, a.nodes[i]? = some m ∧ out[i]? = some ids ∧ m.children ++ ids = next i)
    (hnext : ∀ i < n, ∀ j ∈ next i, j < n) (queue : List Nat) (marks : List Bool) (h : Searching next n queue marks) :
    ∃ marks', a.search? out queue marks = some marks' ∧ marks'.length = n ∧
      ∀ j, marks'[j]? = some true ↔ MarkedLeads next marks j := by
  -- every visit takes a node from the queue or from the unmarked ones
  induction hk : queue.length + marks.count false using Nat.strong_induction_on generalizing queue marks with
  | _ k ih =>
    match queue, h, hk with
    | [], h, _ => exact ⟨marks, by rw [search?], h.length, h.markedLeads_nil⟩
    | i :: queue, h, hk =>
      obtain ⟨m, ids, hm, hids, hni⟩ := hget i h.lt
      obtain ⟨queue', marks', he, hspec⟩ := exists_enqueue? (next i) queue marks fun j hj =>
        h.length ▸ hnext i h.lt j hj
      have hless : queue'.length + marks'.count false < k := by
        have := length_add_count_enqueue? _ _ _ he
        rw [← hk, List.length_cons]
        omega
      obtain ⟨marks'', hs, hlen, hreach⟩ := ih _ hless queue' marks' (h.visit hspec) rfl
      refine ⟨marks'', ?_, hlen, fun j => (hreach j).trans (h.markedLeads_visit hspec j)⟩
      rw [search?_cons hm hids (hni ▸ he), hs]

theorem foldlM_put? : ∀ (start : List Nat) (g : Nat → Bool), (∀ i ∈ start, i < n) →
    start.foldlM (put? · · true) (tabulated n g) = some (tabulated n fun i => g i || start.contains i)
  | [], g, _ => by
    simp
  | i :: start, g, h => by
    rw [List.foldlM_cons, tabulated_put? (h i List.mem_cons_self), Option.bind_eq_bind, Option.bind_some,
      foldlM_put? start _ fun j hj => h j (List.mem_cons_of_mem _ hj)]
    congr 2
    funext j
    by_cases hj : j = i <;> simp [hj]

end Arena

/-! ## Layouts -/

namespace Forest

variable {α : Type} {f : Forest α}

/-- Which of the nodes are listed. -/
def marks (f : Forest α) (ids : List Nat) : List Bool := tabulated f.nodes.length (ids.contains ·)

theorem WellFormed.targets?_layout (h : f.WellFormed) :
    f.layout.targets? = some (tabulated f.nodes.length (targetsOf f.links)) := by
  have hnone : List.replicate f.nodes.length [] = tabulated f.nodes.length (targetsOf []) :=
    eq_tabulated List.length_replicate fun i hi => by simp [hi, targetsOf]
  unfold Arena.targets?
  rw [length_layout, hnone]
  exact foldlM_enlist? f.links [] fun l hl => h.link_lt hl

theorem getElem?_marks {ids : List Nat} (hids : ∀ i ∈ ids, i < f.nodes.length) (i : Nat) :
    (f.marks ids)[i]? = some true ↔ i ∈ ids := by
  unfold marks
  constructor
  · intro hi
    obtain ⟨hlt, -⟩ := List.getElem?_eq_some_iff.1 hi
    rw [getElem?_tabulated (by simpa using hlt)] at hi
    simpa using hi
  · intro hi
    rw [getElem?_tabulated (hids i hi)]
    simpa using hi

/-- Marks in the number of the nodes are given by what is marked. -/
theorem eq_marks {ms : List Bool} {ids : List Nat} (hlen : ms.length = f.nodes.length)
    (h : ∀ i, ms[i]? = some true ↔ i ∈ ids) : ms = f.marks ids := by
  refine eq_tabulated hlen fun i hi => ?_
  have hget := List.getElem?_eq_getElem (hlen ▸ hi : i < ms.length)
  have hi := h i
  rw [hget, Option.some.injEq] at hi ⊢
  rw [Bool.eq_iff_iff, hi, List.contains_iff_mem]

/-- A search of a layout marks what is reachable in the forest. -/
theorem WellFormed.reach?_layout (h : f.WellFormed) {start : List Nat} (hs : ∀ i ∈ start, i < f.nodes.length) :
    f.layout.reach? start = some (f.marks (f.reach start)) := by
  let next (i : Nat) : List Nat := f.childrenOf i ++ targetsOf f.links i
  have hstep : ∀ i j, j ∈ next i ↔ f.leadsTo i j = true := fun i j => by
    rw [List.mem_append, mem_childrenOf, mem_targetsOf, leadsTo_iff]
  have hget : ∀ i < f.nodes.length, ∃ m ids, f.layout.nodes[i]? = some m ∧
      (tabulated f.nodes.length (targetsOf f.links))[i]? = some ids ∧ m.children ++ ids = next i := fun i hi =>
    ⟨_, _, by rw [getElem?_layout, List.getElem?_eq_getElem hi, Option.map_some], getElem?_tabulated hi, rfl⟩
  have hstart := f.getElem?_marks hs
  have hsearching : Searching next f.nodes.length start (f.marks start) :=
    ⟨length_tabulated _ _, fun i hi => (hstart i).2 hi, fun i hi hno => absurd ((hstart i).1 hi) hno⟩
  obtain ⟨found, hsearch, hlen, hfound⟩ := Arena.search?_spec hget
    (fun i _ j hj => (h.lt_of_leadsTo ((hstep i j).1 hj)).2) start (f.marks start) hsearching
  have hreach : found = f.marks (f.reach start) := by
    refine eq_marks hlen fun j => ?_
    unfold MarkedLeads at hfound
    simp only [hstart, hstep] at hfound
    rw [hfound, h.mem_reach_iff]
  have hnone : List.replicate f.nodes.length false = tabulated f.nodes.length fun _ => false :=
    eq_tabulated List.length_replicate fun i hi => by simp [hi]
  have hmarks : start.foldlM (put? · · true) (List.replicate f.layout.nodes.length false) = some (f.marks start) := by
    rw [length_layout, hnone, Arena.foldlM_put? start _ hs]
    simp only [Bool.false_or]
    rfl
  unfold Arena.reach?
  rw [h.targets?_layout, hmarks, ← hreach]
  exact hsearch

/-! ### Parents -/

variable [DecidableEq α]

omit [DecidableEq α] in
theorem var?_layout (n : ForestNode α) (parent : Option Nat) (ids : List Nat) :
    (⟨n.content, parent, ids⟩ : ArenaNode α).var? = n.var? := by
  rcases n with ⟨_ | _, _⟩ <;> rfl

/-- The node that a union hangs from holds an element. -/
theorem WellFormed.parent?_ne (h : f.WellFormed) (v : α) : f.parent? v ≠ some none := by
  unfold parent?
  cases hp : f.parentNode? v with
  | none => simp
  | some m =>
    obtain ⟨p, -, hm⟩ := Option.bind_eq_some_iff.1 hp
    have hvar : f.varAt? p = m.var? := by
      unfold varAt?
      rw [hm]
      rfl
    dsimp only
    split_ifs with hu
    · intro hnone
      obtain ⟨k, hk, hkv⟩ := Option.map_eq_some_iff.1 hnone
      obtain ⟨q, hq, hk⟩ := Option.bind_eq_some_iff.1 hk
      have hpq : f.parentAt? p = some q := by
        unfold parentAt?
        rw [hm]
        exact hq
      obtain ⟨w, hw⟩ := h.parent_value hpq (hvar.trans (Option.isNone_iff_eq_none.1 hu))
      unfold varAt? at hw
      rw [hk, Option.bind_some, hkv] at hw
      cases hw
    · intro hnone
      exact hu (Option.isNone_iff_eq_none.2 (Option.some.inj hnone))

theorem WellFormed.parent?_layout (h : f.WellFormed) (v : α) : f.layout.parent? v = some (f.parent? v) := by
  have hparent : ∀ {i : Nat} {n : ForestNode α} {p : Nat}, f.nodes[i]? = some n → n.parent = some p →
      ∃ m, f.nodes[p]? = some m := by
    intro i n p hn hp
    have hat : f.parentAt? i = some p := by
      unfold parentAt?
      rw [hn]
      exact hp
    exact ⟨_, List.getElem?_eq_getElem (Nat.lt_trans (h.parent_lt hat) (lt_length_of_parentAt? hat))⟩
  unfold Arena.parent? parent? parentNode? nodeOf?
  rw [idOf?_layout]
  cases hid : f.idOf? v with
  | none => rfl
  | some id =>
    obtain ⟨n, hn, -⟩ := Option.bind_eq_some_iff.1 (varAt?_of_idOf? hid)
    simp only [getElem?_layout, hn, Option.map_some, Option.bind_eq_bind, Option.bind_some, Arena.above?]
    cases hp : n.parent with
    | none => rfl
    | some p =>
      obtain ⟨m, hm⟩ := hparent hn hp
      simp only [hm, Option.map_some, Option.bind_some, var?_layout, ForestNode.isUnion]
      by_cases hu : m.var?.isNone = true
      · simp only [hu, if_true]
        cases hq : m.parent with
        | none => rfl
        | some q =>
          obtain ⟨k, hk⟩ := hparent hm hq
          simp only [hk, Option.map_some, Option.bind_some, var?_layout]
      · simp only [hu, if_false, hm, Option.map_some, var?_layout, Bool.false_eq_true]

end Forest

end NilFlow
