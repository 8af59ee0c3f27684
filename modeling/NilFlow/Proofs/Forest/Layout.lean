import NilFlow.Forest.Arena
import NilFlow.Proofs.Forest.Components
import NilFlow.Proofs.Forest.WellFormed

/-!
# The layout of a forest

* `Forest.layout`: a forest laid out in an arena.
* `Forest.Ordered.push?_layout`, `Forest.Ordered.place?_layout`: a node is appended to a layout.
* `Forest.classify?_layout`: candidates are looked up.
* `Forest.WellFormed.add?_layout`: a discovery is inserted into the layout of a well-formed forest without leaving it,
  and what results is the layout of the forest with the discovery.
-/

namespace NilFlow

namespace Forest

section Layout

variable {α : Type} {f : Forest α}

def childrenOf (f : Forest α) (p : Nat) : List Nat := f.ids.filter fun i => f.parentAt? i = some p

/-- A forest laid out in an arena. -/
def layout (f : Forest α) : Arena α where
  nodes := f.nodes.zipIdx.map fun (n, i) => ⟨n.content, n.parent, f.childrenOf i⟩
  table := f.numbered.map Prod.swap
  links := f.links.map fun l => (some l.1, l.2)

/-- Every node hangs from an earlier one. -/
def Ordered (f : Forest α) : Prop := ∀ {i p}, f.parentAt? i = some p → p < i

def snoc (f : Forest α) (n : ForestNode α) : Forest α := ⟨f.nodes ++ [n], f.links⟩

@[simp] theorem length_layout (f : Forest α) : f.layout.nodes.length = f.nodes.length := by simp [layout]

theorem getElem?_layout (f : Forest α) (i : Nat) :
    f.layout.nodes[i]? = (f.nodes[i]?).map fun n => ⟨n.content, n.parent, f.childrenOf i⟩ := by
  unfold layout
  rw [List.getElem?_map, List.getElem?_zipIdx]
  cases f.nodes[i]? <;> simp

theorem mem_childrenOf {p i : Nat} : i ∈ f.childrenOf p ↔ f.parentAt? i = some p := by
  unfold childrenOf ids
  rw [List.mem_filter, List.mem_range, decide_eq_true_eq]
  exact and_iff_right_of_imp lt_length_of_parentAt?

theorem nodup_childrenOf (f : Forest α) (p : Nat) : (f.childrenOf p).Nodup := List.nodup_range.filter _

/-! ### One more node -/

theorem getElem?_append_singleton {β : Type} (l : List β) (b : β) (i : Nat) :
    (l ++ [b])[i]? = if i = l.length then some b else l[i]? := by
  split_ifs with hi
  · rw [hi, List.getElem?_append_right (Nat.le_refl _), Nat.sub_self]
    rfl
  · rcases Nat.lt_or_gt_of_ne hi with hlt | hgt
    · exact List.getElem?_append_left hlt
    · rw [List.getElem?_eq_none (Nat.le_of_lt hgt), List.getElem?_eq_none (by simp; omega)]

theorem getElem?_snoc (f : Forest α) (n : ForestNode α) (i : Nat) :
    (f.snoc n).nodes[i]? = if i = f.nodes.length then some n else f.nodes[i]? :=
  getElem?_append_singleton f.nodes n i

theorem parentAt?_snoc (f : Forest α) (n : ForestNode α) (i : Nat) :
    (f.snoc n).parentAt? i = if i = f.nodes.length then n.parent else f.parentAt? i := by
  unfold parentAt?
  rw [getElem?_snoc]
  split_ifs <;> rfl

theorem Ordered.snoc (h : f.Ordered) {n : ForestNode α} (hn : ∀ p ∈ n.parent, p < f.nodes.length) :
    (f.snoc n).Ordered := by
  intro i p hp
  rw [parentAt?_snoc] at hp
  split_ifs at hp with hi
  · exact hi ▸ hn p hp
  · exact h hp

theorem childrenOf_snoc (f : Forest α) (n : ForestNode α) (p : Nat) :
    (f.snoc n).childrenOf p = f.childrenOf p ++ if n.parent = some p then [f.nodes.length] else [] := by
  have hids : (f.snoc n).ids = f.ids ++ [f.nodes.length] := by
    unfold ids Forest.snoc
    rw [List.length_append, List.length_singleton, List.range_succ]
  unfold childrenOf
  rw [hids, List.filter_append]
  congr 1
  · refine List.filter_congr fun i hi => ?_
    rw [parentAt?_snoc, if_neg (Nat.ne_of_lt (List.mem_range.1 hi))]
  · rw [List.filter_singleton, parentAt?_snoc, if_pos rfl]
    by_cases h : n.parent = some p <;> simp [h]

theorem Ordered.childrenOf_eq_nil (h : f.Ordered) {p : Nat} (hp : f.nodes.length ≤ p) : f.childrenOf p = [] := by
  refine List.eq_nil_iff_forall_not_mem.2 fun i hi => ?_
  have hi := mem_childrenOf.1 hi
  have := h hi
  have := lt_length_of_parentAt? hi
  omega

/-- One more node changes nothing but the children of its parent. -/
theorem Ordered.getElem?_layout_snoc (h : f.Ordered) (n : ForestNode α) (hn : ∀ p ∈ n.parent, p < f.nodes.length)
    (i : Nat) :
    (f.snoc n).layout.nodes[i]? = ((f.layout.nodes ++ [⟨n.content, n.parent, []⟩])[i]?).map fun m =>
      if n.parent = some i then m.adopt f.nodes.length else m := by
  rw [getElem?_layout, getElem?_snoc, getElem?_append_singleton, getElem?_layout, childrenOf_snoc, length_layout]
  by_cases hi : i = f.nodes.length
  · have hp : n.parent ≠ some i := fun hp => Nat.ne_of_lt (hn i hp) hi
    rw [if_pos hi, if_pos hi, h.childrenOf_eq_nil (Nat.le_of_eq hi.symm)]
    simp only [if_neg hp]
    rfl
  · rw [if_neg hi, if_neg hi, Option.map_map]
    split_ifs
    · rfl
    · simp [Function.comp_def]

/-- Appending a node to a layout appends it to the forest; only the table does not know of it. -/
theorem Ordered.push?_layout (h : f.Ordered) (n : ForestNode α) (hn : ∀ p ∈ n.parent, p < f.nodes.length) :
    f.layout.push? n.content n.parent = some { (f.snoc n).layout with table := f.layout.table } := by
  have hnodes := h.getElem?_layout_snoc n hn
  unfold Arena.push?
  cases hp : n.parent with
  | none =>
    have heq : (f.snoc n).layout.nodes = f.layout.nodes ++ [⟨n.content, none, []⟩] :=
      List.ext_getElem? fun i => by simp [hnodes i, hp]
    simp only [heq]
    rfl
  | some p =>
    have hlt : p < (f.layout.nodes ++ [(⟨n.content, some p, []⟩ : ArenaNode α)]).length := by
      have := hn p hp
      simp
      omega
    have heq : (f.snoc n).layout.nodes =
        (f.layout.nodes ++ [(⟨n.content, some p, []⟩ : ArenaNode α)]).modify p (·.adopt f.layout.nodes.length) :=
      List.ext_getElem? fun i => by
        rw [hnodes i, List.getElem?_modify, length_layout, hp]
        simp only [Option.some.injEq]
        rfl
    simp only [Arena.change?, if_pos hlt, heq]
    rfl

/-! ### The table -/

theorem numbered_snoc (f : Forest α) (n : ForestNode α) :
    (f.snoc n).numbered = f.numbered ++ (n.var?.map (f.nodes.length, ·)).toList := by
  unfold numbered Forest.snoc
  rw [List.zipIdx_append, List.filterMap_append, Nat.zero_add]
  cases h : n.var? <;> simp [h]

theorem map_fst_table (f : Forest α) : f.layout.table.map (·.1) = f.elements := by
  rw [← map_snd_numbered]
  unfold layout
  rw [List.map_map]
  rfl

theorem mem_table {v : α} {i : Nat} : (v, i) ∈ f.layout.table ↔ f.varAt? i = some v := by
  rw [← mem_numbered]
  unfold layout
  simp

/-- A union is appended to the layout and the table alike. -/
theorem Ordered.push?_union (h : f.Ordered) {parent : Option Nat} (hp : ∀ p ∈ parent, p < f.nodes.length) :
    f.layout.push? .union parent = some (f.snoc ⟨.union, parent⟩).layout := by
  have htable : (f.snoc ⟨.union, parent⟩).layout.table = f.layout.table := by
    unfold layout
    rw [numbered_snoc]
    simp [ForestNode.var?]
  rw [h.push?_layout ⟨.union, parent⟩ hp, ← htable]

variable [DecidableEq α]

theorem lookup_table (v : α) : ∀ (nodes : List (ForestNode α)) (k : Nat),
    ((((nodes.zipIdx k).filterMap fun (n, i) => n.var?.map (i, ·)).map Prod.swap).lookup v) =
      (nodes.findIdx? fun n => n.var? = some v).map (· + k)
  | [], _ => rfl
  | n :: nodes, k => by
    have ih := lookup_table v nodes (k + 1)
    rw [List.zipIdx_cons, List.findIdx?_cons]
    cases hv : n.var? with
    | none =>
      rw [List.filterMap_cons_none (by simp [hv]), ih]
      cases nodes.findIdx? _ <;> simp
      omega
    | some w =>
      rw [List.filterMap_cons_some (by simp only [hv]; rfl), List.map_cons, Prod.swap_prod_mk, List.lookup_cons, ih]
      by_cases hw : v = w
      · simp [hw]
      · simp only [beq_eq_false_iff_ne.2 hw, Option.some.injEq, Ne.symm hw, decide_false]
        cases nodes.findIdx? _ <;> simp
        omega

theorem idOf?_layout (f : Forest α) (v : α) : f.layout.idOf? v = f.idOf? v := by
  have h := lookup_table v f.nodes 0
  rw [show (fun x => x + 0) = (id : Nat → Nat) from rfl, Option.map_id] at h
  exact h

/-- The node of a new element is appended to the layout and entered into the table. -/
theorem Ordered.place?_layout (h : f.Ordered) {parent : Option Nat} (hp : ∀ p ∈ parent, p < f.nodes.length)
    {c : Candidate α} (hc : c.var ∉ f.elements) :
    f.layout.place? parent c = some (f.snoc ⟨.value c.var c.implicit, parent⟩).layout := by
  have htable : (f.snoc ⟨.value c.var c.implicit, parent⟩).layout.table =
      f.layout.table.filter (·.1 ≠ c.var) ++ [(c.var, f.nodes.length)] := by
    have hkeep : f.layout.table.filter (·.1 ≠ c.var) = f.layout.table := by
      refine List.filter_eq_self.2 fun x hx => ?_
      have hmem : x.1 ∈ f.elements := by
        rw [← map_fst_table]
        exact List.mem_map_of_mem hx
      exact decide_eq_true fun he => hc (he ▸ hmem)
    rw [hkeep]
    unfold layout
    rw [numbered_snoc, List.map_append]
    rfl
  unfold Arena.place?
  rw [h.push?_layout ⟨.value c.var c.implicit, parent⟩ hp]
  simp only [Option.map_some, Arena.enter, length_layout, ← htable]

omit [DecidableEq α] in
theorem elements_snoc (f : Forest α) (n : ForestNode α) : (f.snoc n).elements = f.elements ++ n.var?.toList := by
  unfold elements Forest.snoc
  rw [List.filterMap_append]
  cases h : n.var? <;> simp [h]

theorem Ordered.foldlM_place?_layout {parent : Option Nat} : ∀ (cs : List (Candidate α)) {f : Forest α}, f.Ordered →
    (∀ p ∈ parent, p < f.nodes.length) → (cs.map (·.var)).Nodup → (∀ c ∈ cs, c.var ∉ f.elements) →
      cs.foldlM (·.place? parent ·) f.layout =
        some (layout ⟨f.nodes ++ cs.map fun c => ⟨.value c.var c.implicit, parent⟩, f.links⟩)
  | [], f, _, _, _, _ => by simp
  | c :: cs, f, h, hp, hn, hc => by
    rw [List.map_cons, List.nodup_cons] at hn
    have hlt : ∀ p ∈ parent, p < (f.snoc ⟨.value c.var c.implicit, parent⟩).nodes.length := fun p hpar => by
      have := hp p hpar
      simp [Forest.snoc]
      omega
    have hnew : ∀ c' ∈ cs, c'.var ∉ (f.snoc ⟨.value c.var c.implicit, parent⟩).elements := fun c' hc' => by
      rw [elements_snoc, List.mem_append, not_or]
      refine ⟨hc c' (List.mem_cons_of_mem _ hc'), fun he => hn.1 ?_⟩
      have he : c'.var = c.var := by simpa [ForestNode.var?] using he
      exact he ▸ List.mem_map_of_mem hc'
    have ih := foldlM_place?_layout cs (h.snoc hp) hlt hn.2 hnew
    rw [List.foldlM_cons, h.place?_layout hp (hc c List.mem_cons_self), Option.bind_eq_bind, Option.bind_some, ih]
    simp [Forest.snoc, List.append_assoc]

/-! ### Candidates -/

/-- The node, an element found explicitly among some candidates now marked so. -/
def markNode (cs : List (Candidate α)) (n : ForestNode α) : ForestNode α :=
  match n.content with
  | .value v b => { n with content := .value v (b && !cs.any fun c => c.var = v && !c.implicit) }
  | .union => n

/-- The forest after some candidates were looked up. -/
def looked (f : Forest α) (cs : List (Candidate α)) : Forest α := ⟨f.nodes.map (markNode cs), f.links⟩

theorem var?_markNode (cs : List (Candidate α)) (n : ForestNode α) : (markNode cs n).var? = n.var? := var?_marked n cs

theorem parent_markNode (cs : List (Candidate α)) (n : ForestNode α) : (markNode cs n).parent = n.parent := by
  rcases n with ⟨_ | _, _⟩ <;> rfl

theorem length_looked (f : Forest α) (cs : List (Candidate α)) : (f.looked cs).nodes.length = f.nodes.length :=
  List.length_map _

theorem getElem?_looked (f : Forest α) (cs : List (Candidate α)) (i : Nat) :
    (f.looked cs).nodes[i]? = (f.nodes[i]?).map (markNode cs) :=
  List.getElem?_map

theorem parentAt?_looked (f : Forest α) (cs : List (Candidate α)) (i : Nat) :
    (f.looked cs).parentAt? i = f.parentAt? i := by
  unfold parentAt?
  rw [getElem?_looked, Option.bind_map]
  simp only [Function.comp_def, parent_markNode]

theorem childrenOf_looked (f : Forest α) (cs : List (Candidate α)) (p : Nat) :
    (f.looked cs).childrenOf p = f.childrenOf p := by
  unfold childrenOf ids
  simp only [length_looked, parentAt?_looked]

theorem elements_looked (f : Forest α) (cs : List (Candidate α)) : (f.looked cs).elements = f.elements :=
  f.filterMap_var?_marked cs

theorem idOf?_looked (f : Forest α) (cs : List (Candidate α)) (v : α) : (f.looked cs).idOf? v = f.idOf? v := by
  unfold idOf? looked
  rw [List.findIdx?_map]
  simp only [Function.comp_def, var?_markNode]

theorem table_looked (f : Forest α) (cs : List (Candidate α)) : (f.looked cs).layout.table = f.layout.table := by
  unfold layout numbered looked
  rw [List.zipIdx_map, List.filterMap_map]
  simp only [Function.comp_def, Prod.map, var?_markNode, id_eq]

theorem markNode_nil (n : ForestNode α) : markNode [] n = n := by
  rcases n with ⟨_ | _, _⟩ <;> simp [markNode]

theorem looked_nil (f : Forest α) : f.looked [] = f := by
  unfold looked
  rw [funext markNode_nil, List.map_id']

theorem markNode_snoc (cs : List (Candidate α)) {c : Candidate α} {n : ForestNode α}
    (h : c.implicit = true ∨ n.var? ≠ some c.var) : markNode (cs ++ [c]) n = markNode cs n := by
  rcases n with ⟨v | _, p⟩
  · have hno : (decide (c.var = v) && !c.implicit) = false := by
      rcases h with h | h
      · simp [h]
      · simp [ForestNode.var?] at h
        simp [Ne.symm h]
    simp [markNode, List.any_append, hno]
  · rfl

theorem markNode_snoc_explicit (cs : List (Candidate α)) {c : Candidate α} {n : ForestNode α}
    (hv : n.var? = some c.var) (hc : c.implicit = false) (ids : List Nat) :
    (⟨(markNode (cs ++ [c]) n).content, (markNode (cs ++ [c]) n).parent, ids⟩ : ArenaNode α) =
      ArenaNode.explicit ⟨(markNode cs n).content, (markNode cs n).parent, ids⟩ := by
  rcases n with ⟨v | _, p⟩
  · cases hv
    simp [markNode, ArenaNode.explicit, hc]
  · cases hv

/-- An implicit or new candidate changes no node. -/
theorem looked_snoc (f : Forest α) (cs : List (Candidate α)) {c : Candidate α}
    (h : c.implicit = true ∨ c.var ∉ f.elements) : f.looked (cs ++ [c]) = f.looked cs := by
  unfold looked
  congr 1
  exact List.map_congr_left fun n hn =>
    markNode_snoc cs (h.imp_right fun h hv => h (List.mem_filterMap.2 ⟨n, hn, hv⟩))

/-- An explicit candidate with a node changes that one. -/
theorem change?_layout_looked (hn : f.elements.Nodup) (cs : List (Candidate α)) {c : Candidate α} {id : Nat}
    (hid : f.idOf? c.var = some id) (he : c.implicit = false) :
    (f.looked cs).layout.change? id (·.explicit) = some (f.looked (cs ++ [c])).layout := by
  have hlt : id < (f.looked cs).layout.nodes.length := by
    rw [length_layout, length_looked]
    exact lt_length_of_varAt? (varAt?_of_idOf? hid)
  have hnodes : (f.looked (cs ++ [c])).layout.nodes = (f.looked cs).layout.nodes.modify id (·.explicit) := by
    refine List.ext_getElem? fun i => ?_
    rw [List.getElem?_modify, getElem?_layout, getElem?_layout, getElem?_looked, getElem?_looked, childrenOf_looked,
      childrenOf_looked]
    cases hi : f.nodes[i]? with
    | none => rfl
    | some n =>
      -- the node of that number is the one that holds the element
      have hiff : n.var? = some c.var ↔ id = i := by
        have hvar : f.varAt? i = n.var? := by
          unfold varAt?
          rw [hi]
          rfl
        rw [← hvar, ← idOf?_eq_some_iff hn, hid, Option.some.injEq]
      by_cases hii : id = i
      · simp only [Option.map_some, Option.map_eq_map, if_pos hii, markNode_snoc_explicit cs (hiff.2 hii) he]
      · simp only [Option.map_some, Option.map_eq_map, if_neg hii, markNode_snoc cs (Or.inr (mt hiff.1 hii))]
  have htable : (f.looked (cs ++ [c])).layout.table = (f.looked cs).layout.table :=
    (f.table_looked _).trans (f.table_looked _).symm
  unfold Arena.change?
  rw [if_pos hlt, ← hnodes, ← htable]
  rfl

/-- Looking up candidates in a layout sorts them as in the forest. -/
theorem classify?_layout_looked (hn : f.elements.Nodup) : ∀ (cs done fresh : List (Candidate α)) (known : List Nat),
    (f.looked done).layout.classify? fresh known cs = some ((f.looked (done ++ cs)).layout,
      cs.foldl (fun acc c => if f.contains c.var || acc.any (·.var = c.var) then acc else acc ++ [c]) fresh,
      known ++ f.known cs)
  | [], done, fresh, known => by
    rw [List.append_nil, List.foldl_nil, show f.known [] = [] from rfl, List.append_nil]
    rfl
  | c :: cs, done, fresh, known => by
    have ih := fun fresh known => classify?_layout_looked hn cs (done ++ [c]) fresh known
    simp only [List.append_assoc, List.singleton_append] at ih
    have hid : (f.looked done).layout.idOf? c.var = f.idOf? c.var := by rw [idOf?_layout, idOf?_looked]
    have hknown : f.known (c :: cs) = (f.idOf? c.var).toList ++ f.known cs := by
      unfold Forest.known
      rw [List.filterMap_cons]
      cases f.idOf? c.var <;> rfl
    have hcontains : f.contains c.var = (f.idOf? c.var).isSome := rfl
    unfold Arena.classify?
    rw [hid, List.foldl_cons, hknown]
    cases h : f.idOf? c.var with
    | some id =>
      rw [h, Option.isSome_some] at hcontains
      rw [Option.toList_some, ← List.append_assoc]
      simp only [hcontains, Bool.true_or, if_true]
      cases hc : c.implicit with
      | true =>
        rw [f.looked_snoc done (Or.inl hc)] at ih
        exact ih fresh (known ++ [id])
      | false =>
        simp only [Bool.false_eq_true, if_false, change?_layout_looked hn done h hc]
        exact ih fresh (known ++ [id])
    | none =>
      rw [h, Option.isSome_none] at hcontains
      have hnew : c.var ∉ f.elements := by
        rw [← f.contains_iff, hcontains]
        exact Bool.false_ne_true
      rw [f.looked_snoc done (Or.inr hnew)] at ih
      simp only [hcontains, Bool.false_or, Option.toList_none, List.nil_append]
      split_ifs
      · exact ih fresh known
      · exact ih (fresh ++ [c]) known

theorem classify?_layout (hn : f.elements.Nodup) (cs : List (Candidate α)) :
    f.layout.classify? [] [] cs = some ((f.looked cs).layout, f.fresh cs, f.known cs) := by
  have h := classify?_layout_looked hn cs [] [] []
  rwa [looked_nil, List.nil_append, List.nil_append] at h

/-! ### Insertion -/

/-- New nodes are appended to the layout of a forest as an insertion appends them to the forest. -/
theorem Ordered.grow?_layout (h : f.Ordered) {parent : Option Nat} (hp : ∀ p ∈ parent, p < f.nodes.length)
    (gathered : Bool) {fresh : List (Candidate α)} (hn : (fresh.map (·.var)).Nodup)
    (hnew : ∀ c ∈ fresh, c.var ∉ f.elements) :
    let anchor := if gathered then some f.nodes.length else parent
    f.layout.grow? parent gathered fresh = some (layout ⟨f.nodes ++ (if gathered then [⟨.union, parent⟩] else []) ++
      fresh.map fun c => ⟨.value c.var c.implicit, anchor⟩, f.links⟩, anchor) := by
  unfold Arena.grow?
  rw [length_layout]
  cases gathered with
  | false =>
    simp only [Bool.false_eq_true, if_false, List.append_nil, h.foldlM_place?_layout fresh hp hn hnew,
      Option.bind_eq_bind, Option.bind_some]
  | true =>
    have hlt : ∀ p ∈ some f.nodes.length, p < (f.snoc ⟨.union, parent⟩).nodes.length := fun p hp => by
      cases hp
      simp [Forest.snoc]
    have hnew : ∀ c ∈ fresh, c.var ∉ (f.snoc ⟨.union, parent⟩).elements := fun c hc => by
      rw [elements_snoc]
      simpa [ForestNode.var?] using hnew c hc
    have hunion : (f.snoc ⟨.union, parent⟩).Ordered := h.snoc hp
    have hfold := Ordered.foldlM_place?_layout fresh hunion hlt hn hnew
    simp only [if_true, h.push?_union hp, Option.bind_eq_bind, Option.bind_some, hfold]
    rfl

end Layout

end Forest

/-! ## Insertions -/

namespace Insertion

variable {α : Type} [DecidableEq α] {e : Insertion α}

/-- The forest with the new nodes, but not yet the new links. -/
def unlinked (e : Insertion α) : Forest α := ⟨e.after.nodes, e.before.links⟩

theorem hub?_layout_unlinked (h : e.before.elements.Nodup) :
    e.unlinked.layout.hub? e.anchor? e.fresh e.known = e.hub? := by
  unfold Arena.hub? hub?
  cases e.anchor? with
  | some a => rfl
  | none =>
    cases hf : e.fresh with
    | nil => rfl
    | cons c cs =>
      have hn : e.unlinked.elements.Nodup := Forest.nodup_elements_add h e.source e.discovery
      have hvar : e.unlinked.varAt? e.first = some c.var := by
        have hfresh := e.varAt?_after_fresh 0
        rwa [hf] at hfresh
      exact (e.unlinked.idOf?_layout c.var).trans ((Forest.idOf?_eq_some_iff hn _ _).2 hvar)

theorem link_layout_unlinked (e : Insertion α) : e.unlinked.layout.link e.hub? e.known = e.after.layout := by
  have hlinks : e.after.layout.links =
      e.unlinked.layout.links ++ (e.known.filter (some · ≠ e.hub?)).map (e.hub?, ·) := by
    show e.after.links.map _ = e.before.links.map _ ++ _
    rw [links_after, List.map_append]
    congr 1
    cases hh : e.hub? with
    | none =>
      have hknown : e.known = [] := by
        unfold hub? at hh
        exact List.head?_eq_none_iff.1 (Option.or_eq_none_iff.1 hh).2
      rw [hknown]
      rfl
    | some a => simp [Function.comp_def]
  unfold Arena.link
  rw [← hlinks]
  rfl

end Insertion

namespace Forest

variable {α : Type} [DecidableEq α] {f : Forest α}

/-- A discovery is inserted into the layout of a well-formed forest as it is into the forest. -/
theorem WellFormed.add?_layout (h : f.WellFormed) (source : Option α) (d : Discovery α) :
    f.layout.add? source d = some (f.add source d).layout := by
  let e : Insertion α := ⟨f, source, d⟩
  have hparent : source.bind f.layout.idOf? = e.parent? := by
    rw [funext f.idOf?_layout]
    rfl
  have hordered : (f.looked d.candidates).Ordered := fun hp => h.parent_lt (by rwa [parentAt?_looked] at hp)
  have hlt : ∀ p ∈ e.parent?, p < (f.looked d.candidates).nodes.length := fun p hp => by
    rw [length_looked]
    exact Insertion.parent?_lt hp
  have hnew : ∀ c ∈ e.fresh, c.var ∉ (f.looked d.candidates).elements := fun c hc => by
    rw [elements_looked]
    exact not_mem_of_mem_created (List.mem_map_of_mem hc)
  have hgrow : (f.looked d.candidates).layout.grow? e.parent? e.gathers e.fresh =
      some (e.unlinked.layout, e.anchor?) := by
    have hg := Ordered.grow?_layout hordered hlt e.gathers (f.nodup_created d) hnew
    rw [length_looked] at hg
    unfold Insertion.unlinked
    rw [e.nodes_after]
    exact hg
  have hlink : e.unlinked.layout.link (e.unlinked.layout.hub? e.anchor? e.fresh e.known) e.known = e.after.layout := by
    rw [Insertion.hub?_layout_unlinked h.nodup, e.link_layout_unlinked]
  unfold Arena.add?
  rw [hparent, classify?_layout h.nodup]
  show (((f.looked d.candidates).layout.grow? e.parent? e.gathers e.fresh).bind fun r =>
    some (r.1.link (r.1.hub? r.2 e.fresh e.known) e.known)) = some e.after.layout
  rw [hgrow, Option.bind_some, hlink]

/-- Two seeds found together hang from a union; found again through the first, the second is linked from it. -/
example : (Arena.empty.add? none ⟨[⟨0, false⟩, ⟨1, true⟩], true⟩).bind (·.add? (some 0) ⟨[⟨1, false⟩], false⟩) =
    some ⟨[⟨.union, none, [1, 2]⟩, ⟨.value 0 false, some 0, []⟩, ⟨.value 1 false, some 0, []⟩], [(0, 1), (1, 2)],
      [(some 1, 2)]⟩ := by decide

end Forest

end NilFlow
