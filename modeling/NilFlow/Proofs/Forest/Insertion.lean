import NilFlow.Proofs.Forest.Nodes
import Mathlib.Tactic.SplitIfs

/-!
# What a discovery adds to a forest

* `Insertion`: a discovery with its source, and the forest it is inserted into.
* `Insertion.Adds`: the steps that an insertion adds; `Insertion.leadsTo_after` says that it adds no others and keeps
  the old ones.
* `Forest.Grown`: forests that grow from the empty one by insertions whose sources have a node.
-/

namespace NilFlow

variable {α : Type}

/-! ## New elements -/

theorem Forest.mem_vars_foldl_fresh [DecidableEq α] (f : Forest α) (v : α) (hv : f.contains v = false) :
    ∀ (cs acc : List (Candidate α)), v ∈ acc.map (·.var) ∨ v ∈ cs.map (·.var) → v ∈ (cs.foldl
      (fun acc c => if f.contains c.var || acc.any (·.var = c.var) then acc else acc ++ [c]) acc).map (·.var)
  | [], acc, h => h.elim id fun h => absurd h (by simp)
  | c :: cs, acc, h => by
    rw [List.foldl_cons]
    refine f.mem_vars_foldl_fresh v hv cs _ ?_
    rw [List.map_cons, List.mem_cons] at h
    rcases h with h | rfl | h
    · left
      split_ifs
      · exact h
      · rw [List.map_append]
        exact List.mem_append_left _ h
    · left
      split_ifs with hc
      · obtain ⟨x, hx, hxv⟩ : ∃ x ∈ acc, x.var = c.var := by simpa [hv] using hc
        exact hxv ▸ List.mem_map_of_mem hx
      · simp
    · exact Or.inr h

theorem Forest.mem_created [DecidableEq α] (f : Forest α) (d : Discovery α) (v : α) :
    v ∈ f.created d ↔ v ∈ d.vars ∧ v ∉ f.elements := by
  constructor
  · intro h
    exact ⟨mem_vars_of_mem_created h, not_mem_of_mem_created h⟩
  · rintro ⟨hv, hn⟩
    refine f.mem_vars_foldl_fresh v ?_ d.candidates [] (Or.inr hv)
    rw [← f.contains_iff] at hn
    simpa using hn

/-! ## Entries -/

/-- A discovery with its source, and the forest it is inserted into. -/
structure Insertion (α : Type) where
  before : Forest α
  source : Option α
  discovery : Discovery α

namespace Insertion

variable [DecidableEq α]

def parent? (e : Insertion α) : Option Nat := e.source.bind e.before.idOf?

def fresh (e : Insertion α) : List (Candidate α) := e.before.fresh e.discovery.candidates

def known (e : Insertion α) : List Nat := e.before.known e.discovery.candidates

/-- Whether the new nodes hang from a union. -/
def gathers (e : Insertion α) : Bool := Forest.gathers e.discovery e.parent? e.fresh

/-- The number of the first node that is made, which is the union's when there is one. -/
def top (e : Insertion α) : Nat := e.before.nodes.length

/-- The number of the first new node that holds an element. -/
def first (e : Insertion α) : Nat := e.top + if e.gathers then 1 else 0

/-- The node that the new nodes hang from. -/
def anchor? (e : Insertion α) : Option Nat := if e.gathers then some e.top else e.parent?

/-- The node that the known ones are linked from. -/
def hub? (e : Insertion α) : Option Nat :=
  (e.anchor?.or (if e.fresh.isEmpty then none else some e.first)).or e.known.head?

def after (e : Insertion α) : Forest α := e.before.add e.source e.discovery

def created (e : Insertion α) : List α := e.before.created e.discovery

/-- A member of an insertion: its source, or a candidate. -/
def Member (e : Insertion α) (v : α) : Prop := e.source = some v ∨ v ∈ e.discovery.vars

/-- The element that the candidates hang from, if any: the source, without one the only new element, and without new
elements the first candidate. -/
def holder? (e : Insertion α) : Option α :=
  e.source.or (match e.created with
    | [] => e.discovery.vars.head?
    | [v] => some v
    | _ => none)

/-- An element is a candidate, and the candidates hang from the other. -/
def Hangs (e : Insertion α) (u v : α) : Prop := e.holder? = some u ∧ v ∈ e.discovery.vars

/-- The steps that an insertion adds: from the source to its union, from what the new nodes hang from to them, and from
the hub to the known nodes. -/
inductive Adds (e : Insertion α) (a b : Nat) : Prop where
  | union (hg : e.gathers = true) (hb : b = e.top) (ha : e.parent? = some a)
  | fresh (ha : e.anchor? = some a) (c : Candidate α) (j : Nat) (hc : e.fresh[j]? = some c) (hb : b = e.first + j)
  | link (ha : e.hub? = some a) (hb : b ∈ e.known) (hne : b ≠ a)

end Insertion

/-! ## The nodes after an insertion -/

theorem Forest.getElem?_marked [DecidableEq α] (f : Forest α) (cs : List (Candidate α)) :
    ∃ mark : ForestNode α → ForestNode α, (∀ i : Nat, (f.marked cs)[i]? = (f.nodes[i]?).map mark) ∧
      ∀ n, (mark n).var? = n.var? ∧ (mark n).parent = n.parent := by
  refine ⟨_, fun i => List.getElem?_map, fun n => ⟨Forest.var?_marked n cs, ?_⟩⟩
  cases n with
  | mk content parent => cases content <;> rfl

theorem Forest.length_marked [DecidableEq α] (f : Forest α) (cs : List (Candidate α)) :
    (f.marked cs).length = f.nodes.length := List.length_map _

namespace Insertion

variable [DecidableEq α] (e : Insertion α)

theorem nodes_after : e.after.nodes = e.before.marked e.discovery.candidates ++
    (if e.gathers then [⟨.union, e.parent?⟩] else []) ++ e.fresh.map fun c => ⟨.value c.var c.implicit, e.anchor?⟩ := by
  unfold after Forest.add anchor? top
  rw [← Forest.length_marked e.before e.discovery.candidates]
  rfl

theorem links_after : e.after.links = e.before.links ++
    match e.hub? with
    | none => []
    | some h => (e.known.filter (· ≠ h)).map (h, ·) := by
  have hf : (e.before.marked e.discovery.candidates).length +
      (if e.gathers then [(⟨.union, e.parent?⟩ : ForestNode α)] else []).length = e.first := by
    unfold first top
    rw [Forest.length_marked]
    split_ifs <;> rfl
  unfold hub? anchor? top
  rw [← hf, ← Forest.length_marked e.before e.discovery.candidates]
  rfl

theorem length_after : e.after.nodes.length = e.first + e.fresh.length := by
  rw [nodes_after]
  unfold first top
  split_ifs <;> simp only [List.length_append, Forest.length_marked, List.length_map, List.length_singleton,
    List.length_nil]

theorem node_cases (i : Nat) : i < e.top ∨ (e.gathers = true ∧ i = e.top) ∨ ∃ j, i = e.first + j := by
  unfold first
  split_ifs with h
  · rcases Nat.lt_trichotomy i e.top with hi | hi | hi
    · exact Or.inl hi
    · exact Or.inr (Or.inl ⟨h, hi⟩)
    · exact Or.inr (Or.inr ⟨i - (e.top + 1), by omega⟩)
  · rcases Nat.lt_or_ge i e.top with hi | hi
    · exact Or.inl hi
    · exact Or.inr (Or.inr ⟨i - e.top, by omega⟩)

theorem getElem?_after_fresh (j : Nat) :
    e.after.nodes[e.first + j]? = (e.fresh[j]?).map fun c => ⟨.value c.var c.implicit, e.anchor?⟩ := by
  have hlen : (e.before.marked e.discovery.candidates ++
      (if e.gathers then [(⟨.union, e.parent?⟩ : ForestNode α)] else [])).length = e.first := by
    unfold first top
    split_ifs <;> simp [Forest.length_marked]
  rw [nodes_after, List.getElem?_append_right (by rw [hlen]; omega), hlen, Nat.add_sub_cancel_left,
    List.getElem?_map]

theorem varAt?_after_fresh (j : Nat) : e.after.varAt? (e.first + j) = (e.fresh[j]?).map (·.var) := by
  unfold Forest.varAt?
  rw [getElem?_after_fresh]
  cases e.fresh[j]? <;> rfl

theorem parentAt?_after_fresh (j : Nat) :
    e.after.parentAt? (e.first + j) = (e.fresh[j]?).bind fun _ => e.anchor? := by
  unfold Forest.parentAt?
  rw [getElem?_after_fresh]
  cases e.fresh[j]? <;> rfl

variable {e}

theorem getElem?_after_top (hg : e.gathers = true) : e.after.nodes[e.top]? = some ⟨.union, e.parent?⟩ := by
  unfold top
  rw [nodes_after, if_pos hg, List.append_assoc, List.getElem?_append_right (by simp [Forest.length_marked]),
    Forest.length_marked, Nat.sub_self]
  rfl

theorem getElem?_after_old {i : Nat} (hi : i < e.top) :
    e.after.nodes[i]? = (e.before.marked e.discovery.candidates)[i]? := by
  unfold top at hi
  rw [nodes_after, List.append_assoc, List.getElem?_append_left (by rwa [Forest.length_marked])]

theorem varAt?_after_top (hg : e.gathers = true) : e.after.varAt? e.top = none := by
  unfold Forest.varAt?
  rw [getElem?_after_top hg]
  rfl

theorem parentAt?_after_top (hg : e.gathers = true) : e.after.parentAt? e.top = e.parent? := by
  unfold Forest.parentAt?
  rw [getElem?_after_top hg]
  rfl

theorem varAt?_after_old {i : Nat} (hi : i < e.top) : e.after.varAt? i = e.before.varAt? i := by
  obtain ⟨mark, hm, hv⟩ := e.before.getElem?_marked e.discovery.candidates
  unfold Forest.varAt?
  rw [getElem?_after_old hi, hm]
  cases e.before.nodes[i]? with
  | none => rfl
  | some n => exact (hv n).1

theorem parentAt?_after_old {i : Nat} (hi : i < e.top) : e.after.parentAt? i = e.before.parentAt? i := by
  obtain ⟨mark, hm, hv⟩ := e.before.getElem?_marked e.discovery.candidates
  unfold Forest.parentAt?
  rw [getElem?_after_old hi, hm]
  cases e.before.nodes[i]? with
  | none => rfl
  | some n => exact (hv n).2

theorem varAt?_after {i : Nat} {v : α} (h : e.before.varAt? i = some v) : e.after.varAt? i = some v := by
  rw [varAt?_after_old (Forest.lt_length_of_varAt? h), h]

/-! ## The steps after an insertion -/

theorem mem_known {b : Nat} : b ∈ e.known ↔ ∃ v ∈ e.discovery.vars, e.before.idOf? v = some b := by
  unfold known Forest.known Discovery.vars
  simp

theorem parentAt?_after_iff {a b : Nat} : e.after.parentAt? b = some a ↔ e.before.parentAt? b = some a ∨
    (e.gathers = true ∧ b = e.top ∧ e.parent? = some a) ∨
      (e.anchor? = some a ∧ ∃ c j, e.fresh[j]? = some c ∧ b = e.first + j) := by
  have htop : e.top ≤ e.first := Nat.le_add_right _ _
  have hold : ∀ {a b}, e.before.parentAt? b = some a → b < e.top := fun h => Forest.lt_length_of_parentAt? h
  constructor
  · intro h
    rcases e.node_cases b with hb | ⟨hg, rfl⟩ | ⟨j, rfl⟩
    · exact Or.inl (by rwa [← parentAt?_after_old hb])
    · exact Or.inr (Or.inl ⟨hg, rfl, by rwa [← parentAt?_after_top hg]⟩)
    · rw [parentAt?_after_fresh] at h
      obtain ⟨c, hc, ha⟩ := Option.bind_eq_some_iff.1 h
      exact Or.inr (Or.inr ⟨ha, c, j, hc, rfl⟩)
  · rintro (h | ⟨hg, rfl, h⟩ | ⟨h, c, j, hc, rfl⟩)
    · rwa [parentAt?_after_old (hold h)]
    · rwa [parentAt?_after_top hg]
    · rw [parentAt?_after_fresh, hc]
      exact h

theorem mem_links_after {a b : Nat} : (a, b) ∈ e.after.links ↔
    (a, b) ∈ e.before.links ∨ (e.hub? = some a ∧ b ∈ e.known ∧ b ≠ a) := by
  rw [links_after, List.mem_append]
  refine or_congr_right ?_
  cases e.hub? with
  | none => simp
  | some h =>
    simp only [List.mem_map, List.mem_filter, decide_eq_true_eq, Prod.mk.injEq, Option.some.injEq]
    constructor
    · rintro ⟨b', ⟨hb, hne⟩, rfl, rfl⟩
      exact ⟨rfl, hb, hne⟩
    · rintro ⟨rfl, hb, hne⟩
      exact ⟨b, ⟨hb, hne⟩, rfl, rfl⟩

theorem leadsTo_after {a b : Nat} :
    e.after.leadsTo a b = true ↔ e.before.leadsTo a b = true ∨ e.Adds a b := by
  rw [Forest.leadsTo_iff, Forest.leadsTo_iff, parentAt?_after_iff, mem_links_after]
  constructor
  · rintro ((h | ⟨hg, hb, ha⟩ | ⟨ha, c, j, hc, hb⟩) | (h | ⟨ha, hb, hne⟩))
    · exact Or.inl (Or.inl h)
    · exact Or.inr (.union hg hb ha)
    · exact Or.inr (.fresh ha c j hc hb)
    · exact Or.inl (Or.inr h)
    · exact Or.inr (.link ha hb hne)
  · rintro ((h | h) | h)
    · exact Or.inl (Or.inl h)
    · exact Or.inr (Or.inl h)
    · cases h with
      | union hg hb ha => exact Or.inl (Or.inr (Or.inl ⟨hg, hb, ha⟩))
      | fresh ha c j hc hb => exact Or.inl (Or.inr (Or.inr ⟨ha, c, j, hc, hb⟩))
      | link ha hb hne => exact Or.inr (Or.inr ⟨ha, hb, hne⟩)

/-! ### What candidates hang from -/

theorem known_eq : e.known = e.discovery.vars.filterMap e.before.idOf? := by
  unfold known Forest.known Discovery.vars
  rw [List.filterMap_map]
  rfl

theorem parent?_of_no_source (hs : e.source = none) : e.parent? = none := by
  unfold parent?
  rw [hs]
  rfl

theorem length_fresh_le (hg : e.gathers = false) (hs : e.source = none) : e.fresh.length ≤ 1 := by
  unfold gathers Forest.gathers at hg
  rw [parent?_of_no_source hs] at hg
  simpa using hg

theorem lt_length_fresh (hg : e.gathers = true) : 1 < e.fresh.length := by
  unfold gathers Forest.gathers at hg
  exact of_decide_eq_true (Bool.and_eq_true_iff.1 hg).1

theorem holder?_of_source {x : α} (hs : e.source = some x) : e.holder? = some x := by
  unfold holder?
  rw [hs]
  rfl

/-- The candidates hang from the source, or without one from a candidate. -/
theorem holder?_cases {u : α} (h : e.holder? = some u) :
    e.source = some u ∨ e.source = none ∧ u ∈ e.discovery.vars := by
  unfold holder? at h
  cases hs : e.source with
  | some x =>
    rw [hs] at h
    exact Or.inl h
  | none =>
    rw [hs, Option.none_or] at h
    refine Or.inr ⟨rfl, ?_⟩
    split at h
    · exact List.mem_of_head? h
    · rename_i v hc
      have hv : v ∈ e.created := by rw [hc]; exact List.mem_cons_self
      cases h
      exact Forest.mem_vars_of_mem_created hv
    · cases h

theorem member_of_holder? {u : α} (h : e.holder? = some u) : e.Member u := (holder?_cases h).imp_right And.right

theorem exists_holder (hg : e.gathers = false) {m : α} (hm : e.Member m) : ∃ u, e.holder? = some u := by
  cases hs : e.source with
  | some x => exact ⟨x, holder?_of_source hs⟩
  | none =>
    have hlen := length_fresh_le hg hs
    have hm : m ∈ e.discovery.vars := hm.resolve_left (by simp [hs])
    have hcreated : e.created = e.fresh.map (·.var) := rfl
    unfold holder?
    rw [hs, hcreated, Option.none_or]
    match hf : e.fresh with
    | [] => exact Option.isSome_iff_exists.1 (List.isSome_head?.2 (List.ne_nil_of_mem hm))
    | [c] => exact ⟨c.var, rfl⟩
    | c :: c' :: cs => rw [hf] at hlen; simp at hlen

/-- Only through its source does a union hang from an element. -/
theorem source_of_gathers (hg : e.gathers = true) {u : α} (h : e.holder? = some u) : e.source = some u := by
  cases hs : e.source with
  | some x => rw [← holder?_of_source hs, h]
  | none =>
    have hlen := lt_length_fresh hg
    have hcreated : e.created = e.fresh.map (·.var) := rfl
    unfold holder? at h
    rw [hs, hcreated] at h
    match hf : e.fresh with
    | [] => rw [hf] at hlen; simp at hlen
    | [c] => rw [hf] at hlen; simp at hlen
    | c :: c' :: cs => rw [hf] at h; cases h

end Insertion

/-! ## Growth -/

namespace Forest

/-- A forest with more nodes and links. -/
structure Extends (f g : Forest α) : Prop where
  length : f.nodes.length ≤ g.nodes.length
  varAt : ∀ i < f.nodes.length, g.varAt? i = f.varAt? i
  parentAt : ∀ i < f.nodes.length, g.parentAt? i = f.parentAt? i
  links : ∀ l ∈ f.links, l ∈ g.links

theorem Extends.refl (f : Forest α) : f.Extends f := ⟨Nat.le_refl _, fun _ _ => rfl, fun _ _ => rfl, fun _ h => h⟩

theorem Extends.trans {f g h : Forest α} (hf : f.Extends g) (hg : g.Extends h) : f.Extends h where
  length := Nat.le_trans hf.length hg.length
  varAt i hi := (hg.varAt i (Nat.lt_of_lt_of_le hi hf.length)).trans (hf.varAt i hi)
  parentAt i hi := (hg.parentAt i (Nat.lt_of_lt_of_le hi hf.length)).trans (hf.parentAt i hi)
  links l hl := hg.links l (hf.links l hl)

theorem Extends.varAt?_eq {f g : Forest α} (h : f.Extends g) {i : Nat} {v : α} (hi : f.varAt? i = some v) :
    g.varAt? i = some v := by
  rw [h.varAt i (lt_length_of_varAt? hi), hi]

theorem Extends.parentAt?_eq {f g : Forest α} (h : f.Extends g) {i p : Nat} (hi : f.parentAt? i = some p) :
    g.parentAt? i = some p := by
  rw [h.parentAt i (lt_length_of_parentAt? hi), hi]

theorem Extends.leadsTo {f g : Forest α} (h : f.Extends g) {a b : Nat} (hab : f.leadsTo a b = true) :
    g.leadsTo a b = true := by
  rw [leadsTo_iff] at hab ⊢
  exact hab.imp h.parentAt?_eq (h.links (a, b))

end Forest

theorem Insertion.extends_after [DecidableEq α] (e : Insertion α) : e.before.Extends e.after where
  length := by
    rw [e.length_after]
    unfold first top
    omega
  varAt _ hi := varAt?_after_old hi
  parentAt _ hi := parentAt?_after_old hi
  links l hl := mem_links_after.2 (Or.inl hl)

namespace Forest

variable [DecidableEq α]

/-- Forests that grow from the empty one, insertion by insertion, by sources that have a node. -/
inductive Grown : List (Insertion α) → Forest α → Prop where
  | empty : Grown [] Forest.empty
  | add {es : List (Insertion α)} {f : Forest α} (h : Grown es f) (source : Option α) (d : Discovery α)
      (hs : ∀ x, source = some x → x ∈ f.elements) : Grown (es ++ [⟨f, source, d⟩]) (f.add source d)

namespace Grown

variable {es : List (Insertion α)} {f : Forest α}

theorem nodup (h : Grown es f) : f.elements.Nodup := by
  induction h with
  | empty => exact List.nodup_nil
  | add _ source d _ ih => exact nodup_elements_add ih source d

theorem before (h : Grown es f) {e : Insertion α} (he : e ∈ es) :
    (∃ es', Grown es' e.before) ∧ (∀ x, e.source = some x → x ∈ e.before.elements) ∧ e.after.Extends f := by
  induction h with
  | empty => exact absurd he (by simp)
  | @add es f hg source d hs ih =>
    have hext := Insertion.extends_after ⟨f, source, d⟩
    rcases List.mem_append.1 he with he | he
    · obtain ⟨hb, hx, hf⟩ := ih he
      exact ⟨hb, hx, hf.trans hext⟩
    · rw [List.mem_singleton.1 he]
      exact ⟨⟨es, hg⟩, hs, .refl _⟩

theorem extends_after (h : Grown es f) {e : Insertion α} (he : e ∈ es) : e.after.Extends f := (h.before he).2.2

/-- Every step of a grown forest was added by an insertion. -/
theorem exists_adds (h : Grown es f) {a b : Nat} (hab : f.leadsTo a b = true) : ∃ e ∈ es, e.Adds a b := by
  induction h with
  | empty => simp [leadsTo, Forest.empty] at hab
  | @add es f _ source d _ ih =>
    rcases (Insertion.leadsTo_after (e := ⟨f, source, d⟩)).1 hab with hab | hab
    · obtain ⟨e, he, ha⟩ := ih hab
      exact ⟨e, List.mem_append_left _ he, ha⟩
    · exact ⟨_, List.mem_append_right _ (List.mem_singleton_self _), hab⟩

/-- Every node that hangs from another is a union that hangs from the source of its insertion, or a new element that
hangs from the anchor. -/
theorem exists_anchor (h : Grown es f) {a b : Nat} (hab : f.parentAt? b = some a) : ∃ e ∈ es,
    (e.gathers = true ∧ b = e.top ∧ e.parent? = some a) ∨
      (e.anchor? = some a ∧ ∃ c j, e.fresh[j]? = some c ∧ b = e.first + j) := by
  induction h with
  | empty => simp [parentAt?, Forest.empty] at hab
  | @add es f _ source d _ ih =>
    rcases (Insertion.parentAt?_after_iff (e := ⟨f, source, d⟩)).1 hab with hab | hab
    · obtain ⟨e, he, ha⟩ := ih hab
      exact ⟨e, List.mem_append_left _ he, ha⟩
    · exact ⟨_, List.mem_append_right _ (List.mem_singleton_self _), hab⟩

theorem leadsTo_of_adds (h : Grown es f) {e : Insertion α} (he : e ∈ es) {a b : Nat} (hab : e.Adds a b) :
    f.leadsTo a b = true :=
  (h.extends_after he).leadsTo (Insertion.leadsTo_after.2 (Or.inr hab))

theorem top_lt (h : Grown es f) {e : Insertion α} (he : e ∈ es) (hg : e.gathers = true) : e.top < f.nodes.length := by
  refine Nat.lt_of_lt_of_le ?_ (h.extends_after he).length
  rw [e.length_after]
  unfold Insertion.first
  rw [if_pos hg]
  omega

theorem top_inj (h : Grown es f) {e e' : Insertion α} (he : e ∈ es) (he' : e' ∈ es) (hg : e.gathers = true)
    (hg' : e'.gathers = true) (ht : e.top = e'.top) : e = e' := by
  induction h with
  | empty => exact absurd he (by simp)
  | @add es f hgr source d hs ih =>
    rcases List.mem_append.1 he with he | he <;> rcases List.mem_append.1 he' with he' | he'
    · exact ih he he'
    · have hlt := hgr.top_lt he hg
      rw [ht, List.mem_singleton.1 he'] at hlt
      exact absurd hlt (Nat.lt_irrefl _)
    · have hlt := hgr.top_lt he' hg'
      rw [← ht, List.mem_singleton.1 he] at hlt
      exact absurd hlt (Nat.lt_irrefl _)
    · rw [List.mem_singleton.1 he, List.mem_singleton.1 he']

theorem varAt?_top (h : Grown es f) {e : Insertion α} (he : e ∈ es) (hg : e.gathers = true) :
    f.varAt? e.top = none := by
  have hlt : e.top < e.after.nodes.length := by
    rw [e.length_after]
    unfold Insertion.first
    rw [if_pos hg]
    omega
  rw [(h.extends_after he).varAt _ hlt, Insertion.varAt?_after_top hg]

/-! ### Members -/

theorem exists_fresh (h : Grown es f) {e : Insertion α} (he : e ∈ es) {v : α} (hv : v ∈ e.created) :
    ∃ c j, e.fresh[j]? = some c ∧ f.varAt? (e.first + j) = some v ∧ f.parentAt? (e.first + j) = e.anchor? := by
  obtain ⟨c, hc, rfl⟩ := List.mem_map.1 hv
  obtain ⟨j, hj⟩ := List.mem_iff_getElem?.1 hc
  have hlt : e.first + j < e.after.nodes.length := by
    rw [e.length_after]
    have := (List.getElem?_eq_some_iff.1 hj).1
    exact Nat.add_lt_add_left this _
  have hj : e.fresh[j]? = some c := hj
  refine ⟨c, j, hj, ?_, ?_⟩
  · rw [(h.extends_after he).varAt _ hlt, e.varAt?_after_fresh, hj]
    rfl
  · rw [(h.extends_after he).parentAt _ hlt, e.parentAt?_after_fresh, hj]
    rfl

theorem candidate_cases (h : Grown es f) {e : Insertion α} (he : e ∈ es) {v : α} (hv : v ∈ e.discovery.vars) :
    (∃ b ∈ e.known, b < e.top ∧ f.varAt? b = some v) ∨ v ∈ e.created := by
  by_cases hn : v ∈ e.before.elements
  · obtain ⟨b, hb⟩ := exists_idOf? hn
    have hvar := varAt?_of_idOf? hb
    exact Or.inl ⟨b, Insertion.mem_known.2 ⟨v, hv, hb⟩, lt_length_of_varAt? hvar,
      (h.extends_after he).varAt?_eq (Insertion.varAt?_after hvar)⟩
  · exact Or.inr ((e.before.mem_created e.discovery v).2 ⟨hv, hn⟩)

theorem exists_parent (h : Grown es f) {e : Insertion α} (he : e ∈ es) {x : α} (hx : e.source = some x) :
    ∃ p, e.parent? = some p ∧ p < e.top ∧ f.varAt? p = some x := by
  obtain ⟨p, hp⟩ := exists_idOf? ((h.before he).2.1 x hx)
  have hvar := varAt?_of_idOf? hp
  refine ⟨p, ?_, lt_length_of_varAt? hvar, (h.extends_after he).varAt?_eq (Insertion.varAt?_after hvar)⟩
  unfold Insertion.parent?
  rw [hx]
  exact hp

theorem varAt?_of_parent? (h : Grown es f) {e : Insertion α} (he : e ∈ es) {p : Nat} (hp : e.parent? = some p) :
    ∃ x, e.source = some x ∧ f.varAt? p = some x := by
  obtain ⟨x, hx, hid⟩ := Option.bind_eq_some_iff.1 hp
  exact ⟨x, hx, (h.extends_after he).varAt?_eq (Insertion.varAt?_after (varAt?_of_idOf? hid))⟩

theorem varAt?_of_mem_known (h : Grown es f) {e : Insertion α} (he : e ∈ es) {b : Nat} (hb : b ∈ e.known) :
    ∃ v ∈ e.discovery.vars, f.varAt? b = some v := by
  obtain ⟨v, hv, hid⟩ := Insertion.mem_known.1 hb
  exact ⟨v, hv, (h.extends_after he).varAt?_eq (Insertion.varAt?_after (varAt?_of_idOf? hid))⟩

theorem varAt?_fresh (h : Grown es f) {e : Insertion α} (he : e ∈ es) {c : Candidate α} {j : Nat}
    (hc : e.fresh[j]? = some c) : c.var ∈ e.discovery.vars ∧ f.varAt? (e.first + j) = some c.var := by
  have hv : c.var ∈ e.created := List.mem_map_of_mem (List.mem_of_getElem? hc)
  refine ⟨((e.before.mem_created e.discovery _).1 hv).1, (h.extends_after he).varAt?_eq ?_⟩
  rw [e.varAt?_after_fresh, hc]
  rfl

/-- Only new elements of an insertion hang from its union. -/
theorem exists_created_of_parentAt? (h : Grown es f) {e : Insertion α} (he : e ∈ es) (hg : e.gathers = true) {b : Nat}
    (hb : f.parentAt? b = some e.top) : ∃ v ∈ e.created, f.varAt? b = some v := by
  have hnone := h.varAt?_top he hg
  have hval : ∀ {e' : Insertion α}, e' ∈ es → e'.parent? ≠ some e.top := by
    intro e' he' hp
    obtain ⟨x, -, hx⟩ := h.varAt?_of_parent? he' hp
    rw [hnone] at hx
    exact absurd hx (by simp)
  obtain ⟨e', he', ⟨-, -, hp⟩ | ⟨ha, c, j, hc, rfl⟩⟩ := h.exists_anchor hb
  · exact absurd hp (hval he')
  · unfold Insertion.anchor? at ha
    split_ifs at ha with hg'
    · obtain rfl := h.top_inj he' he hg' hg (Option.some.inj ha)
      exact ⟨c.var, List.mem_map_of_mem (List.mem_of_getElem? hc), (h.varAt?_fresh he' hc).2⟩
    · exact absurd ha (hval he')

theorem leadsTo_top (h : Grown es f) {e : Insertion α} (he : e ∈ es) (hg : e.gathers = true) :
    (∀ v ∈ e.discovery.vars, ∃ b, f.varAt? b = some v ∧ f.leadsTo e.top b = true) ∧
      ∀ x, e.source = some x → ∃ a, f.varAt? a = some x ∧ f.leadsTo a e.top = true := by
  have hanchor : e.anchor? = some e.top := if_pos hg
  constructor
  · intro v hv
    rcases h.candidate_cases he hv with ⟨b, hb, hlt, hvar⟩ | hv
    · have hhub : e.hub? = some e.top := by
        unfold Insertion.hub?
        rw [hanchor]
        rfl
      exact ⟨b, hvar, h.leadsTo_of_adds he (.link hhub hb (Nat.ne_of_lt hlt))⟩
    · obtain ⟨c, j, hc, hvar, -⟩ := h.exists_fresh he hv
      exact ⟨_, hvar, h.leadsTo_of_adds he (.fresh hanchor c j hc rfl)⟩
  · intro x hx
    obtain ⟨p, hp, -, hvar⟩ := h.exists_parent he hx
    exact ⟨p, hvar, h.leadsTo_of_adds he (.union hg rfl hp)⟩

/-- Without a union, the hub is the node of what the candidates hang from. -/
theorem varAt?_hub (h : Grown es f) {e : Insertion α} (he : e ∈ es) (hg : e.gathers = false) :
    e.hub?.bind f.varAt? = e.holder? := by
  have hanchor : e.anchor? = e.parent? := if_neg (by simp [hg])
  cases hs : e.source with
  | some x =>
    obtain ⟨p, hp, -, hvar⟩ := h.exists_parent he hs
    have hhub : e.hub? = some p := by
      unfold Insertion.hub?
      rw [hanchor, hp]
      rfl
    rw [hhub, Insertion.holder?_of_source hs]
    exact hvar
  | none =>
    have hhub : e.hub? = (if e.fresh.isEmpty then none else some e.first).or e.known.head? := by
      unfold Insertion.hub?
      rw [hanchor, Insertion.parent?_of_no_source hs, Option.none_or]
    have hcreated : e.created = e.fresh.map (·.var) := rfl
    have hlen := Insertion.length_fresh_le hg hs
    unfold Insertion.holder?
    rw [hhub, hs, hcreated, Option.none_or]
    match hf : e.fresh with
    | [] =>
      cases hv : e.discovery.vars with
      | nil =>
        rw [Insertion.known_eq, hv]
        rfl
      | cons v vs =>
        -- without new elements, the first candidate is known
        have hmem : v ∈ e.before.elements := by
          by_contra hn
          have hnew := (e.before.mem_created e.discovery v).2 ⟨by rw [hv]; exact List.mem_cons_self, hn⟩
          rw [show e.before.created e.discovery = e.fresh.map (·.var) from rfl, hf] at hnew
          exact absurd hnew (by simp)
        obtain ⟨b, hb⟩ := exists_idOf? hmem
        rw [Insertion.known_eq, hv, List.filterMap_cons_some hb]
        exact (h.extends_after he).varAt?_eq (Insertion.varAt?_after (varAt?_of_idOf? hb))
    | [c] =>
      have hc : e.fresh[0]? = some c := by rw [hf]; rfl
      exact (h.varAt?_fresh he hc).2
    | c :: c' :: cs => rw [hf] at hlen; simp at hlen

/-- Without a union, the hub leads to all candidates but itself. -/
theorem leadsTo_hub (h : Grown es f) {e : Insertion α} (he : e ∈ es) (hg : e.gathers = false) {i : Nat}
    (hi : e.hub? = some i) {v : α} (hv : v ∈ e.discovery.vars) :
    ∃ b, f.varAt? b = some v ∧ (b = i ∨ f.leadsTo i b = true) := by
  rcases h.candidate_cases he hv with ⟨b, hb, -, hvar⟩ | hv
  · refine ⟨b, hvar, ?_⟩
    by_cases hbi : b = i
    · exact Or.inl hbi
    · exact Or.inr (h.leadsTo_of_adds he (.link hi hb hbi))
  · obtain ⟨c, j, hc, hvar, -⟩ := h.exists_fresh he hv
    refine ⟨_, hvar, ?_⟩
    unfold Insertion.hub? at hi
    cases ha : e.anchor? with
    | some a =>
      rw [ha] at hi
      cases hi
      exact Or.inr (h.leadsTo_of_adds he (.fresh ha c j hc rfl))
    | none =>
      -- the only new node is the hub
      have hs : e.source = none := by
        cases hs : e.source with
        | none => rfl
        | some x =>
          obtain ⟨p, hp, -⟩ := h.exists_parent he hs
          rw [show e.anchor? = e.parent? from if_neg (by simp [hg]), hp] at ha
          cases ha
      have hlen := Insertion.length_fresh_le hg hs
      have hj := (List.getElem?_eq_some_iff.1 hc).1
      have hne : e.fresh.isEmpty = false := by
        rw [List.isEmpty_eq_false_iff]
        exact List.ne_nil_of_mem (List.mem_of_getElem? hc)
      rw [ha, hne] at hi
      cases hi
      left
      omega

/-- Without a union, one member leads to all candidates. -/
theorem exists_hub (h : Grown es f) {e : Insertion α} (he : e ∈ es) (hg : e.gathers = false) {m : α} (hm : e.Member m) :
    ∃ i u, f.varAt? i = some u ∧ e.holder? = some u ∧
      ∀ v ∈ e.discovery.vars, ∃ b, f.varAt? b = some v ∧ (b = i ∨ f.leadsTo i b = true) := by
  obtain ⟨u, hu⟩ := Insertion.exists_holder hg hm
  have hhub := h.varAt?_hub he hg
  rw [hu] at hhub
  obtain ⟨i, hi, hvar⟩ := Option.bind_eq_some_iff.1 hhub
  exact ⟨i, u, hvar, hu, fun v hv => h.leadsTo_hub he hg hi hv⟩

theorem adds_cases (h : Grown es f) {e : Insertion α} (he : e ∈ es) {a b : Nat} (hab : e.Adds a b) :
    (e.gathers = true ∧ b = e.top ∧ ∃ x, e.source = some x ∧ f.varAt? a = some x) ∨
      (∃ v ∈ e.discovery.vars, f.varAt? b = some v ∧ ((e.gathers = true ∧ a = e.top) ∨
        e.gathers = false ∧ ∃ u, e.holder? = some u ∧ f.varAt? a = some u)) := by
  have hanchor : e.gathers = true → e.anchor? = some e.top := fun hg => if_pos hg
  cases hab with
  | union hg hb ha => exact Or.inl ⟨hg, hb, h.varAt?_of_parent? he ha⟩
  | fresh ha c j hc hb =>
    obtain ⟨hcv, hvar⟩ := h.varAt?_fresh he hc
    refine Or.inr ⟨c.var, hcv, by rw [hb]; exact hvar, ?_⟩
    cases hg : e.gathers with
    | true =>
      rw [hanchor hg] at ha
      cases ha
      exact Or.inl ⟨rfl, rfl⟩
    | false =>
      rw [show e.anchor? = e.parent? from if_neg (by simp [hg])] at ha
      obtain ⟨x, hx, hvar'⟩ := h.varAt?_of_parent? he ha
      exact Or.inr ⟨rfl, x, Insertion.holder?_of_source hx, hvar'⟩
  | link ha hb hne =>
    obtain ⟨v, hv, hvar⟩ := h.varAt?_of_mem_known he hb
    refine Or.inr ⟨v, hv, hvar, ?_⟩
    cases hg : e.gathers with
    | true =>
      unfold Insertion.hub? at ha
      rw [hanchor hg] at ha
      cases ha
      exact Or.inl ⟨rfl, rfl⟩
    | false =>
      obtain ⟨u, hu⟩ := Insertion.exists_holder hg (Or.inr hv)
      have hhub := h.varAt?_hub he hg
      rw [ha, hu] at hhub
      exact Or.inr ⟨rfl, u, hu, hhub⟩

end Grown

end Forest

end NilFlow
