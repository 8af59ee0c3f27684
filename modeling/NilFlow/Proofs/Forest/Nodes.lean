import NilFlow.Forest.Elements
import Mathlib.Tactic.ByContra

/-!
# The nodes of a forest

What a forest says about a node: the element it holds and the node it hangs from.

* `Forest.varAt?`, `Forest.parentAt?`: the element and the parent of a node.
* `Forest.idOf?_eq_some_iff`: in a forest of distinct elements, an element's node is the one that holds it.
* `Forest.leadsTo_iff`, `Forest.mem_joins`: steps and joins, over parents and links.
-/

namespace NilFlow

namespace Forest

variable {α : Type}

def varAt? (f : Forest α) (i : Nat) : Option α := (f.nodes[i]?).bind ForestNode.var?

def parentAt? (f : Forest α) (i : Nat) : Option Nat := (f.nodes[i]?).bind (·.parent)

theorem lt_length_of_varAt? {f : Forest α} {i : Nat} {v : α} (h : f.varAt? i = some v) : i < f.nodes.length := by
  by_contra hi
  unfold varAt? at h
  rw [List.getElem?_eq_none (Nat.le_of_not_lt hi)] at h
  exact absurd h (by simp)

theorem lt_length_of_parentAt? {f : Forest α} {i p : Nat} (h : f.parentAt? i = some p) : i < f.nodes.length := by
  by_contra hi
  unfold parentAt? at h
  rw [List.getElem?_eq_none (Nat.le_of_not_lt hi)] at h
  exact absurd h (by simp)

theorem mem_elements_iff (f : Forest α) (v : α) : v ∈ f.elements ↔ ∃ i, f.varAt? i = some v := by
  unfold elements varAt?
  rw [List.mem_filterMap]
  constructor
  · rintro ⟨n, hn, hv⟩
    obtain ⟨i, hi, rfl⟩ := List.getElem_of_mem hn
    exact ⟨i, by rw [List.getElem?_eq_getElem hi]; exact hv⟩
  · rintro ⟨i, hi⟩
    obtain ⟨n, hn, hv⟩ := Option.bind_eq_some_iff.1 hi
    exact ⟨n, List.mem_of_getElem? hn, hv⟩

theorem varAt?_inj {f : Forest α} (hn : f.elements.Nodup) {i j : Nat} {v : α} (hi : f.varAt? i = some v)
    (hj : f.varAt? j = some v) : i = j := by
  -- two nodes of one element would list it twice
  have hlt : ∀ {i j : Nat}, f.varAt? i = some v → f.varAt? j = some v → ¬ i < j := by
    intro i j hi hj hij
    obtain ⟨n, hn₁, hv⟩ := Option.bind_eq_some_iff.1 hi
    obtain ⟨m, hm, hw⟩ := Option.bind_eq_some_iff.1 hj
    obtain ⟨hil, rfl⟩ := List.getElem?_eq_some_iff.1 hn₁
    obtain ⟨hjl, rfl⟩ := List.getElem?_eq_some_iff.1 hm
    have hp := List.pairwise_filterMap.1 hn
    exact List.pairwise_iff_getElem.1 hp i j hil hjl hij v hv v hw rfl
  rcases Nat.lt_trichotomy i j with h | h | h
  · exact absurd h (hlt hi hj)
  · exact h
  · exact absurd h (hlt hj hi)

theorem leadsTo_iff (f : Forest α) (a b : Nat) :
    f.leadsTo a b = true ↔ f.parentAt? b = some a ∨ (a, b) ∈ f.links := by
  unfold leadsTo parentAt?
  cases h : f.nodes[b]? <;> simp

theorem mem_joins (f : Forest α) (a b : Nat) : (a, b) ∈ f.joins ↔ f.parentAt? a = some b ∨ (a, b) ∈ f.links := by
  unfold joins parentAt?
  rw [List.mem_append, List.mem_filterMap]
  refine or_congr_left ⟨?_, fun h => ?_⟩
  · rintro ⟨⟨n, i⟩, hn, h⟩
    obtain ⟨p, hp, he⟩ := Option.map_eq_some_iff.1 h
    obtain ⟨rfl, rfl⟩ := Prod.mk.inj he
    rw [List.mem_zipIdx_iff_getElem?] at hn
    rw [hn]
    exact hp
  · obtain ⟨n, hn, hp⟩ := Option.bind_eq_some_iff.1 h
    exact ⟨(n, a), List.mem_zipIdx_iff_getElem?.2 hn, by simp [hp]⟩

variable [DecidableEq α]

theorem varAt?_of_idOf? {f : Forest α} {v : α} {i : Nat} (h : f.idOf? v = some i) : f.varAt? i = some v := by
  unfold idOf? at h
  rw [List.findIdx?_eq_some_iff_getElem] at h
  obtain ⟨hi, hv, -⟩ := h
  unfold varAt?
  rw [List.getElem?_eq_getElem hi]
  simpa using hv

theorem exists_idOf? {f : Forest α} {v : α} (h : v ∈ f.elements) : ∃ i, f.idOf? v = some i :=
  Option.isSome_iff_exists.1 ((f.contains_iff v).2 h)

theorem idOf?_eq_some_iff {f : Forest α} (hn : f.elements.Nodup) (v : α) (i : Nat) :
    f.idOf? v = some i ↔ f.varAt? i = some v := by
  refine ⟨varAt?_of_idOf?, fun h => ?_⟩
  obtain ⟨j, hj⟩ := exists_idOf? ((f.mem_elements_iff v).2 ⟨i, h⟩)
  rw [hj, varAt?_inj hn h (varAt?_of_idOf? hj)]

end Forest

end NilFlow
