import NilFlow.Proofs.Forest.Trimming
import NilFlow.Proofs.UnionFind
import Mathlib.Logic.Relation

/-!
# Components

* `Forest.Sound`: every join stays within the nodes, so that union-find can be trusted with them.
* `Forest.components_flatten_perm`, `Forest.ne_nil_of_mem_components`: the components hold every element once, and none
  is empty.
* `Forest.together_iff`: two elements lie in one component exactly when joins connect their nodes.
* `Forest.together_trim_iff`: after trimming, when steps between surviving nodes do.
-/

namespace NilFlow

namespace Forest

variable {α : Type} {f : Forest α} {le : α → α → Bool}

/-- Every join stays within the nodes. -/
def Sound (f : Forest α) : Prop := ∀ p ∈ f.joins, p.1 < f.nodes.length ∧ p.2 < f.nodes.length

/-- Two elements lie in one component. -/
def Together (f : Forest α) (le : α → α → Bool) (a b : α) : Prop := ∃ c ∈ f.components le, a ∈ c ∧ b ∈ c

/-! ## Components of a sound forest -/

def numbered (f : Forest α) : List (Nat × α) := f.nodes.zipIdx.filterMap fun (n, i) => n.var?.map (i, ·)

theorem mem_numbered (f : Forest α) (i : Nat) (v : α) : (i, v) ∈ f.numbered ↔ f.varAt? i = some v := by
  unfold numbered varAt?
  rw [List.mem_filterMap]
  constructor
  · rintro ⟨⟨n, j⟩, hn, h⟩
    obtain ⟨w, hw, he⟩ := Option.map_eq_some_iff.1 h
    obtain ⟨rfl, rfl⟩ := Prod.mk.inj he
    rw [List.mem_zipIdx_iff_getElem?] at hn
    rw [hn]
    exact hw
  · intro h
    obtain ⟨n, hn, hv⟩ := Option.bind_eq_some_iff.1 h
    exact ⟨(n, i), List.mem_zipIdx_iff_getElem?.2 hn, by simp [hv]⟩

theorem map_snd_numbered (f : Forest α) : f.numbered.map (·.2) = f.elements := by
  unfold numbered elements
  rw [List.map_filterMap]
  conv_rhs => rw [← List.zipIdx_map_fst 0 f.nodes, List.filterMap_map]
  congr 1
  funext p
  cases h : p.1.var? <;> simp [h]

/-- The classes that the joins of the nodes generate. -/
def classesOf (f : Forest α) : UnionFind := (UnionFind.singletons f.nodes.length).unionAll f.joins

theorem Sound.exists_gathered (hs : f.Sound) : ∃ out, f.rawComponents = out.map (·.2) ∧
    UnionFind.Gathered (fun x => (f.classesOf.find x).1) f.numbered out ∧ (out.flatMap (·.2)).Perm f.elements := by
  have hu := (UnionFind.same_unionAll f.nodes.length f.joins hs).1
  have hnone : UnionFind.Gathered (fun x => (f.classesOf.find x).1) ([] : List (Nat × α)) [] :=
    ⟨by simp, by simp, by simp⟩
  obtain ⟨out, he, hg, hp⟩ := UnionFind.exists_gathered hu (fun x => rfl) f.numbered hnone
  refine ⟨out, he, hg, ?_⟩
  rw [map_snd_numbered] at hp
  exact hp

theorem mem_components (f : Forest α) (c : List α) :
    c ∈ f.components le ↔ ∃ r ∈ f.rawComponents, sortedBy le r = c := by
  unfold components
  rw [(sortedBy_perm _ _).mem_iff, List.mem_map]

theorem together_iff_raw (f : Forest α) (a b : α) : f.Together le a b ↔ ∃ r ∈ f.rawComponents, a ∈ r ∧ b ∈ r := by
  unfold Together
  constructor
  · rintro ⟨c, hc, ha, hb⟩
    obtain ⟨r, hr, rfl⟩ := (f.mem_components c).1 hc
    rw [(sortedBy_perm le r).mem_iff] at ha hb
    exact ⟨r, hr, ha, hb⟩
  · rintro ⟨r, hr, ha, hb⟩
    refine ⟨sortedBy le r, (f.mem_components _).2 ⟨r, hr, rfl⟩, ?_, ?_⟩
    · rwa [(sortedBy_perm le r).mem_iff]
    · rwa [(sortedBy_perm le r).mem_iff]

theorem flatten_map_sortedBy_perm (le : α → α → Bool) : ∀ (l : List (List α)),
    (l.map (sortedBy le)).flatten.Perm l.flatten
  | [] => .refl _
  | r :: l => by
    rw [List.map_cons, List.flatten_cons, List.flatten_cons]
    exact (sortedBy_perm le r).append (flatten_map_sortedBy_perm le l)

theorem Sound.components_flatten_perm (hs : f.Sound) (le : α → α → Bool) :
    (f.components le).flatten.Perm f.elements := by
  obtain ⟨out, he, -, hp⟩ := hs.exists_gathered
  have hraw : f.rawComponents.flatten.Perm f.elements := by
    rw [he]
    rwa [List.flatMap_def] at hp
  exact ((sortedBy_perm _ _).flatten.trans (flatten_map_sortedBy_perm le _)).trans hraw

theorem Sound.ne_nil_of_mem_components (hs : f.Sound) {c : List α} (hc : c ∈ f.components le) : c ≠ [] := by
  obtain ⟨out, he, hg, -⟩ := hs.exists_gathered
  obtain ⟨r, hr, rfl⟩ := (f.mem_components c).1 hc
  rw [he] at hr
  obtain ⟨g, hgm, rfl⟩ := List.mem_map.1 hr
  intro h
  have hp := sortedBy_perm le g.2
  rw [h] at hp
  exact hg.ne_nil hgm hp.nil_eq.symm

theorem Sound.together_iff (hs : f.Sound) (hn : f.elements.Nodup) {i j : Nat} {a b : α} (ha : f.varAt? i = some a)
    (hb : f.varAt? j = some b) : f.Together le a b ↔ Connected f.joins i j := by
  obtain ⟨out, he, hg, -⟩ := hs.exists_gathered
  obtain ⟨hu, hsame⟩ := UnionFind.same_unionAll f.nodes.length f.joins hs
  rw [together_iff_raw, he, ← hsame, ← UnionFind.find_eq_iff hu]
  have hmem : ∀ {g}, g ∈ out → ∀ {k v}, f.varAt? k = some v → (v ∈ g.2 ↔ (f.classesOf.find k).1 = g.1) := by
    intro g hgm k v hv
    rw [hg.mem_iff hgm]
    constructor
    · rintro ⟨x, hx, hr⟩
      rwa [varAt?_inj hn hv ((f.mem_numbered x v).1 hx)]
    · intro hr
      exact ⟨k, (f.mem_numbered k v).2 hv, hr⟩
  constructor
  · rintro ⟨r, hr, har, hbr⟩
    obtain ⟨g, hgm, rfl⟩ := List.mem_map.1 hr
    exact ((hmem hgm ha).1 har).trans ((hmem hgm hb).1 hbr).symm
  · intro h
    obtain ⟨g, hgm, hk⟩ := List.mem_map.1 ((hg.keys _).2 ⟨(i, a), (f.mem_numbered i a).2 ha, rfl⟩)
    exact ⟨g.2, List.mem_map_of_mem hgm, (hmem hgm ha).2 hk.symm, (hmem hgm hb).2 (h.symm.trans hk.symm)⟩

/-! ## Components of a trimmed forest -/

variable [DecidableEq α] {removed : List α}

theorem sound_trim (f : Forest α) (removed : List α) : (f.trim removed).Sound := by
  rintro ⟨x, y⟩ h
  obtain ⟨a, b, ha, hb, -⟩ := mem_joins_trim.1 h
  exact ⟨renumbered?_lt ha, renumbered?_lt hb⟩

/-- A step between surviving nodes. -/
def AliveStep (f : Forest α) (removed : List α) (a b : Nat) : Prop :=
  f.Alive removed a ∧ f.Alive removed b ∧ f.leadsTo a b = true

theorem eqvGen_of_mem_joins {a b : Nat} (ha : f.Alive removed a) (hb : f.Alive removed b) (h : (a, b) ∈ f.joins) :
    Relation.EqvGen (f.AliveStep removed) a b := by
  rcases (f.mem_joins a b).1 h with h | h
  · exact .symm _ _ (.rel _ _ ⟨hb, ha, (f.leadsTo_iff b a).2 (Or.inl h)⟩)
  · exact .rel _ _ ⟨ha, hb, (f.leadsTo_iff a b).2 (Or.inr h)⟩

theorem connected_of_aliveStep {a b x y : Nat} (hx : f.renumbered? removed a = some x)
    (hy : f.renumbered? removed b = some y) (h : f.leadsTo a b = true) : Connected (f.trim removed).joins x y := by
  rcases (f.leadsTo_iff a b).1 h with h | h
  · exact .symm (.pair (mem_joins_trim.2 ⟨b, a, hy, hx, (f.mem_joins b a).2 (Or.inl h)⟩))
  · exact .pair (mem_joins_trim.2 ⟨a, b, hx, hy, (f.mem_joins a b).2 (Or.inr h)⟩)

theorem eqvGen_of_connected {x y : Nat} (h : Connected (f.trim removed).joins x y) :
    x = y ∨ ∃ a b, f.renumbered? removed a = some x ∧ f.renumbered? removed b = some y ∧
      Relation.EqvGen (f.AliveStep removed) a b := by
  induction h with
  | refl => exact Or.inl rfl
  | pair h =>
    obtain ⟨a, b, ha, hb, h⟩ := mem_joins_trim.1 h
    exact Or.inr ⟨a, b, ha, hb,
      eqvGen_of_mem_joins (renumbered?_isSome.1 ⟨_, ha⟩) (renumbered?_isSome.1 ⟨_, hb⟩) h⟩
  | symm _ ih =>
    rcases ih with rfl | ⟨a, b, ha, hb, h⟩
    · exact Or.inl rfl
    · exact Or.inr ⟨b, a, hb, ha, .symm _ _ h⟩
  | trans _ _ ih ih' =>
    rcases ih with rfl | ⟨a, b, ha, hb, h⟩
    · exact ih'
    · rcases ih' with rfl | ⟨b', c, hb', hc, h'⟩
      · exact Or.inr ⟨a, b, ha, hb, h⟩
      · obtain rfl := renumbered?_inj hb hb'
        exact Or.inr ⟨a, c, ha, hc, .trans _ _ _ h h'⟩

theorem connected_of_eqvGen {a b : Nat} (h : Relation.EqvGen (f.AliveStep removed) a b) :
    a = b ∨ ∃ x y, f.renumbered? removed a = some x ∧ f.renumbered? removed b = some y ∧
      Connected (f.trim removed).joins x y := by
  induction h with
  | rel a b h =>
    obtain ⟨x, hx⟩ := renumbered?_isSome.2 h.1
    obtain ⟨y, hy⟩ := renumbered?_isSome.2 h.2.1
    exact Or.inr ⟨x, y, hx, hy, connected_of_aliveStep hx hy h.2.2⟩
  | refl => exact Or.inl rfl
  | symm _ _ _ ih =>
    rcases ih with rfl | ⟨x, y, hx, hy, h⟩
    · exact Or.inl rfl
    · exact Or.inr ⟨y, x, hy, hx, h.symm⟩
  | trans _ _ _ _ _ ih ih' =>
    rcases ih with rfl | ⟨x, y, hx, hy, h⟩
    · exact ih'
    · rcases ih' with rfl | ⟨y', z, hy', hz, h'⟩
      · exact Or.inr ⟨x, y, hx, hy, h⟩
      · rw [hy] at hy'
        obtain rfl := Option.some.inj hy'
        exact Or.inr ⟨x, z, hx, hz, h.trans h'⟩

theorem together_trim_iff (hn : f.elements.Nodup) {i j : Nat} {a b : α} (hi : f.Alive removed i)
    (hj : f.Alive removed j) (ha : f.varAt? i = some a) (hb : f.varAt? j = some b) :
    (f.trim removed).Together le a b ↔ Relation.EqvGen (f.AliveStep removed) i j := by
  obtain ⟨x, hx⟩ := renumbered?_isSome.2 hi
  obtain ⟨y, hy⟩ := renumbered?_isSome.2 hj
  have hnt := hn.sublist (f.elements_trim_sublist removed)
  rw [(f.sound_trim removed).together_iff hnt ((varAt?_trim hx).trans ha) ((varAt?_trim hy).trans hb)]
  constructor
  · intro h
    rcases eqvGen_of_connected h with rfl | ⟨i', j', hi', hj', h⟩
    · obtain rfl := renumbered?_inj hx hy
      exact .refl _
    · obtain rfl := renumbered?_inj hx hi'
      obtain rfl := renumbered?_inj hy hj'
      exact h
  · intro h
    rcases connected_of_eqvGen h with rfl | ⟨x', y', hx', hy', h⟩
    · rw [hx] at hy
      obtain rfl := Option.some.inj hy
      exact .refl _
    · rw [hx] at hx'
      rw [hy] at hy'
      obtain rfl := Option.some.inj hx'
      obtain rfl := Option.some.inj hy'
      exact h

end Forest

end NilFlow
