import NilFlow.Proofs.Forest.Carrying
import NilFlow.Proofs.Forest.Components

/-!
# The representation of every forest

* `UnionFind.union?_eq`, `UnionFind.classes?_eq`: proper classes never lead out of their bound.
* `Forest.WellFormed.components?_layout`: the components of a layout are those of the forest.
* `Arena.Valid`: what the operations rely on without checking it: parents before children, children listed once, a
  table of the value nodes, links that join two nodes and lead to a value.
* `Forest.Lawful`: a well-formed forest whose links join two nodes; `Forest.Lawful.valid_layout`: its layout is valid.
* `WorkList.forest_represented`: calls on a new work list and trimming never leave the arena, and lead to the valid
  layout of their forest.
-/

namespace NilFlow

/-! ## Union-find within its bound -/

namespace UnionFind

variable {u : UnionFind}

theorem getElem?_parent {x : Nat} (hx : x < u.parent.size) : u.parent[x]? = some (u.parentOf x) := by
  unfold parentOf
  rw [Array.getD_eq_getD_getElem?, Array.getElem?_eq_getElem hx, Option.getD_some]

theorem getElem?_rank {x : Nat} (hx : x < u.rank.size) : u.rank[x]? = some (u.rankOf x) := by
  unfold rankOf
  rw [Array.getD_eq_getD_getElem?, Array.getElem?_eq_getElem hx, Option.getD_some]

theorem climb?_eq : ∀ (hops : Nat) (u : UnionFind) (x : Nat), u.Within → x < u.parent.size →
    climb? hops u x = some (climb hops u x)
  | 0, _, _, _, _ => rfl
  | hops + 1, u, x, hw, hx => by
    have hparent := hw x hx
    unfold climb? climb
    simp only [getElem?_parent hx, Option.bind_eq_bind, Option.bind_some]
    split_ifs with hp
    · rfl
    · simp only [getElem?_parent hparent, Option.bind_some]
      exact climb?_eq hops (u.attach x (u.parentOf (u.parentOf x))) _ (hw.halve hp) (by
        rw [size_attach]
        exact hw _ hparent)

theorem find?_eq (hw : u.Within) {x : Nat} (hx : x < u.parent.size) : u.find? x = some (u.find x) := by
  unfold find? find
  rw [if_pos hx, climb?_eq _ _ _ hw hx]

/-- There is a rank for every number. -/
def Ranked (u : UnionFind) : Prop := u.rank.size = u.parent.size

theorem ranked_singletons (n : Nat) : (singletons n).Ranked := by simp [Ranked, singletons]

theorem Keeps.ranked {u' : UnionFind} (h : u.Keeps u') (hr : u.Ranked) : u'.Ranked := by
  unfold Ranked
  rw [h.rank, h.size]
  exact hr

theorem Ranked.attach (hr : u.Ranked) (c t : Nat) : (u.attach c t).Ranked := by
  unfold Ranked
  rw [size_attach]
  exact hr

theorem Ranked.union (hr : u.Ranked) (hu : u.Proper) (a b : Nat) : (u.union a b).Ranked := by
  obtain ⟨hk, hu', -⟩ := find_spec hu a
  obtain ⟨hk', -, -⟩ := find_spec hu' b
  have hr' := hk'.ranked (hk.ranked hr)
  unfold UnionFind.union
  simp only
  split_ifs
  · exact hr'
  · exact hr'.attach _ _
  · exact hr'.attach _ _
  · show (Array.setIfInBounds _ _ _).size = _
    rw [Array.size_setIfInBounds]
    exact hr'.attach _ _

/-- Joining two numbers of proper classes reads no parent and no rank out of bounds. -/
theorem union?_eq (hu : u.Proper) (hr : u.Ranked) {a b : Nat} (ha : a < u.parent.size) (hb : b < u.parent.size) :
    u.union? a b = some (u.union a b) := by
  obtain ⟨hk, hu', hra⟩ := find_spec hu a
  obtain ⟨hk', -, hrb⟩ := find_spec hu' b
  have hr' : ((u.find a).2.find b).2.rank.size = u.parent.size := by
    rw [hk'.ranked (hk.ranked hr), hk'.size, hk.size]
  have hb' : b < (u.find a).2.parent.size := by rwa [hk.size]
  have hrankA := getElem?_rank (u := ((u.find a).2.find b).2) (x := (u.find a).1) (by
    rw [hr']
    exact hra.lt_size hu ha)
  have hrankB := getElem?_rank (u := ((u.find a).2.find b).2) (x := ((u.find a).2.find b).1) (by
    rw [hr', ← hk.size]
    exact hrb.lt_size hu' hb')
  unfold union? UnionFind.union
  simp only [find?_eq hu.within ha, find?_eq hu'.within hb', Option.bind_eq_bind, Option.bind_some, hrankA, hrankB]
  split_ifs <;> rfl

theorem unionAll?_eq : ∀ (pairs : List (Nat × Nat)) {u : UnionFind}, u.Proper → u.Ranked →
    (∀ p ∈ pairs, p.1 < u.parent.size ∧ p.2 < u.parent.size) →
    pairs.foldlM (fun u p => u.union? p.1 p.2) u = some (u.unionAll pairs) ∧ (u.unionAll pairs).Proper ∧
      (u.unionAll pairs).parent.size = u.parent.size
  | [], _, hu, _, _ => ⟨rfl, hu, rfl⟩
  | p :: pairs, u, hu, hr, h => by
    obtain ⟨h₁, h₂⟩ := h p List.mem_cons_self
    obtain ⟨hu', hj⟩ := union_spec hu h₁ h₂
    obtain ⟨hfold, hproper, hsize⟩ := unionAll?_eq pairs hu' (hr.union hu _ _) fun q hq => by
      rw [hj.size]
      exact h q (List.mem_cons_of_mem _ hq)
    refine ⟨?_, hproper, hsize.trans hj.size⟩
    rw [List.foldlM_cons, union?_eq hu hr h₁ h₂, Option.bind_eq_bind, Option.bind_some, hfold]
    rfl

/-- Sorting numbers into proper classes reads nothing out of bounds. -/
theorem classes?_eq {α : Type} : ∀ (values : List (Nat × α)) (groups : List (Nat × List α)) {u : UnionFind}, u.Proper →
    (∀ v ∈ values, v.1 < u.parent.size) → classes? values u groups = some (classes values u groups)
  | [], _, _, _, _ => rfl
  | (x, a) :: values, groups, u, hu, h => by
    obtain ⟨hk, hu', -⟩ := find_spec hu x
    have ih := fun groups => classes?_eq values groups hu' fun v hv => by
      rw [hk.size]
      exact h v (List.mem_cons_of_mem _ hv)
    unfold classes? classes
    rw [find?_eq hu.within (h (x, a) List.mem_cons_self), Option.bind_eq_bind, Option.bind_some]
    exact ih _

end UnionFind

/-! ## Components of a layout -/

namespace Forest

variable {α : Type} {f : Forest α}

/-- Every join of a well-formed forest stays within the nodes. -/
theorem WellFormed.sound (h : f.WellFormed) : f.Sound := by
  rintro ⟨a, b⟩ hab
  rcases (f.mem_joins a b).1 hab with hp | hl
  · have ha := lt_length_of_parentAt? hp
    exact ⟨ha, Nat.lt_trans (h.parent_lt hp) ha⟩
  · obtain ⟨v, hv⟩ := h.link_value hl
    exact ⟨h.link_lt hl, lt_length_of_varAt? hv⟩

/-- What is read off the numbered nodes of a layout can be read off those of the forest. -/
theorem filterMap_zipIdx_layout {β : Type} (f : Forest α) (g : ArenaNode α × Nat → Option β)
    (g' : ForestNode α × Nat → Option β) (hg : ∀ n i ids, g (⟨n.content, n.parent, ids⟩, i) = g' (n, i)) :
    f.layout.nodes.zipIdx.filterMap g = f.nodes.zipIdx.filterMap g' := by
  have hzip : f.layout.nodes.zipIdx =
      f.nodes.zipIdx.map fun c => ((⟨c.1.content, c.1.parent, f.childrenOf c.2⟩ : ArenaNode α), c.2) :=
    List.ext_getElem? fun i => by
      rw [List.getElem?_zipIdx, getElem?_layout, List.getElem?_map, List.getElem?_zipIdx]
      cases f.nodes[i]? <;> simp
  rw [hzip, List.filterMap_map]
  exact List.filterMap_congr fun c _ => hg c.1 c.2 _

theorem mapM_links (links : List (Nat × Nat)) : (links.map fun l => (some l.1, l.2)).mapM
    (fun l => l.1.map (·, l.2)) = some links := by
  induction links with
  | nil => rfl
  | cons l links ih =>
    rw [List.map_cons, List.mapM_cons, ih]
    rfl

theorem WellFormed.components?_layout (h : f.WellFormed) (le : α → α → Bool) :
    f.layout.components? le = some (f.components le) := by
  have hjoins : f.layout.nodes.zipIdx.filterMap (fun c => c.1.parent.map (c.2, ·)) ++ f.links = f.joins :=
    congrArg (· ++ f.links) (f.filterMap_zipIdx_layout _ _ fun _ _ _ => rfl)
  have hvalues : f.layout.nodes.zipIdx.filterMap (fun c => c.1.var?.map (c.2, ·)) = f.numbered :=
    f.filterMap_zipIdx_layout _ _ fun _ _ _ => rfl
  have hsize : (UnionFind.singletons f.nodes.length).parent.size = f.nodes.length := by simp [UnionFind.singletons]
  obtain ⟨hfold, hproper, hkept⟩ := UnionFind.unionAll?_eq f.joins (UnionFind.proper_singletons f.nodes.length)
    (UnionFind.ranked_singletons _) fun p hp => hsize.symm ▸ h.sound p hp
  have hclasses := UnionFind.classes?_eq f.numbered [] hproper fun v hv => by
    rw [hkept, hsize]
    exact lt_length_of_varAt? ((f.mem_numbered v.1 v.2).1 hv)
  have hlinks : f.layout.links.mapM (fun l => l.1.map (·, l.2)) = some f.links := mapM_links f.links
  unfold Arena.components?
  rw [hlinks, hvalues, length_layout]
  simp only [Option.bind_eq_bind, Option.bind_some, hjoins, hfold, hclasses]
  rfl

end Forest

/-! ## Validity -/

namespace Arena

variable {α : Type}

def varAt? (a : Arena α) (i : Nat) : Option α := (a.nodes[i]?).bind ArenaNode.var?

def parentAt? (a : Arena α) (i : Nat) : Option Nat := (a.nodes[i]?).bind ArenaNode.parent

/-- What the operations rely on without checking it. A node hangs from an earlier one and is listed once among its
children, and nowhere else. A union hangs from a value or from nothing, and has a child. The table leads from the
elements to the value nodes, one to one. A link starts at a node and leads to another one, which is a value. -/
structure Valid (a : Arena α) : Prop where
  parent_lt : ∀ {i p}, a.parentAt? i = some p → p < i
  count_children : ∀ {p : Nat} {n : ArenaNode α}, a.nodes[p]? = some n → ∀ i,
    n.children.count i = if a.parentAt? i = some p then 1 else 0
  parent_value : ∀ {i p}, a.parentAt? i = some p → a.varAt? i = none → ∃ v, a.varAt? p = some v
  exists_child : ∀ {i : Nat} {n : ArenaNode α}, a.nodes[i]? = some n → n.var? = none → n.children ≠ []
  nodup_elements : (a.table.map (·.1)).Nodup
  nodup_numbers : (a.table.map (·.2)).Nodup
  mem_table : ∀ {v i}, (v, i) ∈ a.table ↔ a.varAt? i = some v
  link : ∀ l ∈ a.links, ∃ i v, l.1 = some i ∧ i < a.nodes.length ∧ l.2 < a.nodes.length ∧ i ≠ l.2 ∧
    a.varAt? l.2 = some v

end Arena

namespace Forest

variable {α : Type} {f : Forest α}

theorem varAt?_layout (f : Forest α) (i : Nat) : f.layout.varAt? i = f.varAt? i := by
  unfold Arena.varAt? varAt?
  rw [getElem?_layout]
  cases f.nodes[i]? <;> rfl

theorem parentAt?_layout (f : Forest α) (i : Nat) : f.layout.parentAt? i = f.parentAt? i := by
  unfold Arena.parentAt? parentAt?
  rw [getElem?_layout]
  cases f.nodes[i]? <;> rfl

/-- A well-formed forest in which every link joins two nodes. -/
structure Lawful (f : Forest α) : Prop extends f.WellFormed where
  link_ne : ∀ {a b}, (a, b) ∈ f.links → a ≠ b

theorem Lawful.valid_layout (h : f.Lawful) : f.layout.Valid where
  parent_lt := by
    simp only [parentAt?_layout]
    exact h.parent_lt
  count_children := by
    intro p n hn i
    rw [getElem?_layout] at hn
    obtain ⟨m, -, rfl⟩ := Option.map_eq_some_iff.1 hn
    simp only [parentAt?_layout, (f.nodup_childrenOf p).count, mem_childrenOf]
  parent_value := by
    simp only [parentAt?_layout, varAt?_layout]
    exact h.parent_value
  exists_child := by
    intro i n hn hv
    rw [getElem?_layout] at hn
    obtain ⟨m, hm, rfl⟩ := Option.map_eq_some_iff.1 hn
    have hi : f.varAt? i = none := by
      unfold varAt?
      rw [hm]
      exact hv
    obtain ⟨c, hc⟩ := h.exists_child (List.getElem?_eq_some_iff.1 hm).1 hi
    exact List.ne_nil_of_mem (mem_childrenOf.2 hc)
  nodup_elements := by
    rw [map_fst_table]
    exact h.nodup
  nodup_numbers := by
    refine List.Nodup.map_on ?_ (List.Nodup.of_map (·.1) (by rw [map_fst_table]; exact h.nodup))
    rintro ⟨v, i⟩ hv ⟨w, j⟩ hw rfl
    rw [Forest.mem_table] at hv hw
    rw [hv] at hw
    cases hw
    rfl
  mem_table := by
    intro v i
    rw [varAt?_layout]
    exact mem_table
  link := by
    intro l hl
    obtain ⟨⟨a, b⟩, hab, rfl⟩ := List.mem_map.1 hl
    obtain ⟨v, hv⟩ := h.link_value hab
    rw [length_layout, varAt?_layout]
    exact ⟨a, v, rfl, h.link_lt hab, lt_length_of_varAt? hv, h.link_ne hab, hv⟩

/-! ## Histories -/

theorem lawful_empty : (empty : Forest α).Lawful := ⟨wellFormed_empty, fun h => absurd h List.not_mem_nil⟩

variable [DecidableEq α]

theorem Lawful.add (h : f.Lawful) (source : Option α) (d : Discovery α) : (f.add source d).Lawful := by
  let e : Insertion α := ⟨f, source, d⟩
  refine ⟨Insertion.wellFormed_after (e := e) h.toWellFormed, fun {a b} hl => ?_⟩
  rcases (Insertion.mem_links_after (e := e)).1 hl with hl | ⟨-, -, hne⟩
  · exact h.link_ne hl
  · exact hne.symm

theorem Lawful.trim (h : f.Lawful) (nr : List α) : (f.trim nr).Lawful := by
  refine ⟨h.toWellFormed.trim nr, fun {x y} hl hxy => ?_⟩
  obtain ⟨a, b, ha, hb, hab⟩ := mem_links_trim.1 hl
  exact h.link_ne hab (renumbered?_inj ha (hxy ▸ hb))

theorem Lawful.foldlM_trim? : ∀ (trims : List (List α)) {f : Forest α}, f.Lawful →
    trims.foldlM (fun a nr => (a.trim? nr).map (·.1)) f.layout = some (trims.foldl Forest.trim f).layout ∧
      (trims.foldl Forest.trim f).Lawful
  | [], _, h => ⟨rfl, h⟩
  | nr :: trims, f, h => by
    have ih := foldlM_trim? trims (h.trim nr)
    rw [List.foldlM_cons, h.trim?_layout nr, Option.map_some, Option.bind_eq_bind, Option.bind_some, List.foldl_cons]
    exact ih

end Forest

namespace WorkList

variable {α : Type} [DecidableEq α]

theorem addAll?_layout (source : Option α) : ∀ (ds : List (Discovery α)) {w : WorkList α}, w.forest.Lawful →
    w.forest.layout.addAll? source ds = some (w.addAll source ds).forest.layout ∧ (w.addAll source ds).forest.Lawful
  | [], _, h => ⟨rfl, h⟩
  | d :: ds, w, h => by
    have ih := addAll?_layout source ds (w := w.add source d) (h.add source d)
    unfold Arena.addAll? at ih ⊢
    rw [List.foldlM_cons, h.add?_layout source d, Option.bind_eq_bind, Option.bind_some]
    exact ih

theorem foldlM_addAll?_layout : ∀ (calls : List (Option α × List (Discovery α))) {w : WorkList α}, w.forest.Lawful →
    calls.foldlM (fun a c => a.addAll? c.1 c.2) w.forest.layout =
        some (calls.foldl (fun w c => w.addAll c.1 c.2) w).forest.layout ∧
      (calls.foldl (fun w c => w.addAll c.1 c.2) w).forest.Lawful
  | [], _, h => ⟨rfl, h⟩
  | c :: calls, w, h => by
    obtain ⟨hadd, hlawful⟩ := addAll?_layout c.1 c.2 h
    have ih := foldlM_addAll?_layout calls hlawful
    rw [List.foldlM_cons, hadd, Option.bind_eq_bind, Option.bind_some, List.foldl_cons]
    exact ih

/-- Any calls on a new work list, and then any trims, lead in an arena to the layout of their forest, which is valid.
There the parent of every element, what any nodes reach, what trimming leaves and removes, and the components are found
as in the forest: no reference leads out of the arena, and no element is missing from the node that another was
discovered through. -/
theorem forest_represented (calls : List (Option α × List (Discovery α))) (trims : List (List α)) :
    let f := trims.foldl Forest.trim (calls.foldl (fun w c => w.addAll c.1 c.2) (empty : WorkList α)).forest
    Arena.ofHistory? calls trims = some f.layout ∧ f.layout.Valid ∧
      (∀ v, f.layout.parent? v = some (f.parent? v) ∧ f.parent? v ≠ some none) ∧
      (∀ start, (∀ i ∈ start, i < f.nodes.length) → f.layout.reach? start = some (f.marks (f.reach start))) ∧
      (∀ nr, f.layout.trim? nr = some ((f.trim nr).layout, f.trimmed nr)) ∧
      ∀ le, f.layout.components? le = some (f.components le) := by
  intro f
  obtain ⟨hcalls, hlawful⟩ := foldlM_addAll?_layout calls (w := (empty : WorkList α)) Forest.lawful_empty
  obtain ⟨htrims, h⟩ := hlawful.foldlM_trim? trims
  have hhistory : Arena.ofHistory? calls trims = some f.layout := by
    unfold Arena.ofHistory?
    rw [show calls.foldlM (fun a c => a.addAll? c.1 c.2) (Arena.empty : Arena α) = _ from hcalls, Option.bind_eq_bind,
      Option.bind_some, htrims]
  exact ⟨hhistory, h.valid_layout, fun v => ⟨h.parent?_layout v, h.parent?_ne v⟩, fun _ hs => h.reach?_layout hs,
    h.trim?_layout, h.components?_layout⟩

end WorkList

end NilFlow
