import NilFlow.Forest.Elements
import NilFlow.WorkList

/-!
# The budget of a work list

Over a finite scope, a work list can only be served so many times.

* `WorkList.budget`: the elements of the scope without a node, and those in the frontier.
* `WorkList.budget_addAll_le`, `WorkList.budget_removeAll`: discoveries within the scope and evictions never raise it.
* `WorkList.budget_next?_lt`: every element taken lowers it.
-/

namespace NilFlow

theorem length_filter_not_mem_add_le {α : Type} [DecidableEq α] :
    ∀ (c l : List α), c.Nodup → (∀ x ∈ c, x ∈ l) →
    (l.filter (· ∉ c)).length + c.length ≤ l.length
  | [], l, _, _ => List.length_filter_le _ l
  | x :: c, l, hn, hs => by
    have hx : x ∉ c := (List.nodup_cons.1 hn).1
    have ih := length_filter_not_mem_add_le c (l.filter (· ≠ x)) (List.nodup_cons.1 hn).2 fun y hy => by
      refine List.mem_filter.2 ⟨hs y (List.mem_cons_of_mem _ hy), ?_⟩
      simp only [decide_eq_true_eq]
      rintro rfl
      exact hx hy
    have hlt : (l.filter (· ≠ x)).length < l.length := by
      refine List.length_filter_lt_length_iff_exists.2 ⟨x, hs x List.mem_cons_self, by simp⟩
    have he : l.filter (· ∉ x :: c) = (l.filter (· ≠ x)).filter (· ∉ c) := by
      rw [List.filter_filter]
      congr 1
      funext y
      simp only [List.mem_cons, not_or, Bool.decide_and, Bool.and_comm]
    rw [he, List.length_cons]
    omega

namespace WorkList

variable {α : Type} [DecidableEq α]

/-- How many elements of a finite scope can still be taken: those without a node, and those in the frontier. -/
def budget (scope : List α) (w : WorkList α) : Nat :=
  (scope.filter (· ∉ w.forest.elements)).length + w.frontier.length

theorem budget_add_le {scope : List α} (w : WorkList α) (source : Option α) (d : Discovery α)
    (h : ∀ v ∈ d.vars, v ∈ scope) : (w.add source d).budget scope ≤ w.budget scope := by
  have hle := length_filter_not_mem_add_le (w.forest.created d) (scope.filter (· ∉ w.forest.elements))
    (w.forest.nodup_created d) fun v hv => by
      refine List.mem_filter.2 ⟨h v (Forest.mem_vars_of_mem_created hv), ?_⟩
      simpa using Forest.not_mem_of_mem_created hv
  have he : scope.filter (· ∉ w.forest.elements ++ w.forest.created d) =
      (scope.filter (· ∉ w.forest.elements)).filter (· ∉ w.forest.created d) := by
    rw [List.filter_filter]
    congr 1
    funext y
    simp only [List.mem_append, not_or, Bool.decide_and, Bool.and_comm]
  simp only [budget, add, Forest.elements_add, he, List.length_append]
  omega

theorem budget_addAll_le {scope : List α} : ∀ (ds : List (Discovery α)) (w : WorkList α) (source : Option α),
    (∀ d ∈ ds, ∀ v ∈ d.vars, v ∈ scope) → (w.addAll source ds).budget scope ≤ w.budget scope
  | [], _, _, _ => Nat.le_refl _
  | d :: ds, w, source, h =>
    Nat.le_trans (budget_addAll_le ds (w.add source d) source fun e he => h e (List.mem_cons_of_mem _ he))
      (w.budget_add_le source d (h d List.mem_cons_self))

@[simp] theorem budget_removeAll (scope : List α) (w : WorkList α) (vs : List α) :
    (w.removeAll vs).budget scope = w.budget scope := rfl

theorem budget_next?_lt {scope : List α} {w : WorkList α} {v : α} {rest : WorkList α}
    (h : w.next? = some (v, rest)) : rest.budget scope < w.budget scope := by
  simp only [next?, skipEvicted] at h
  split at h
  · exact absurd h (by simp)
  · rename_i x xs hd
    cases h
    have hle := (List.dropWhile_sublist (p := (w.evicted.contains ·)) (l := w.frontier)).length_le
    simp only [budget]
    rw [hd, List.length_cons] at hle
    omega

end WorkList

end NilFlow
