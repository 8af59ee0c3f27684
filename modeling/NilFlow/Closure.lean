/-!
# Closure under a step

* `Reach`: what a chain of steps through a finite scope leads to.
* `closure`: the list of what `Reach` holds of, each once, nearest first.
* `successors`, `others`: one step of the closure.
-/

namespace NilFlow

/-- `Reach scope step start x` holds when `x` is a start element, or a chain of steps through the scope leads to it
from one. -/
inductive Reach {α : Type} (scope : List α) (step : α → α → Bool) (start : List α) : α → Prop where
  | start {x : α} (h : x ∈ start) : Reach scope step start x
  | next {x y : α} (hx : Reach scope step start x) (hy : y ∈ scope) (h : step x y = true) : Reach scope step start y

def successors {α : Type} (step : α → α → Bool) (x : α) (l : List α) : List α := l.filter (step x)

def others {α : Type} (step : α → α → Bool) (x : α) (l : List α) : List α := l.filter (!step x ·)

theorem length_successors_add_others {α : Type} (step : α → α → Bool) (x : α) (l : List α) :
    (successors step x l).length + (others step x l).length = l.length := by
  induction l with
  | nil => rfl
  | cons a l ih =>
    simp only [successors, others] at ih
    cases h : step x a <;> simp [successors, others, h] <;> omega

/-- Visits the queue in order. What a visited element steps to moves from the unseen elements to the queue's end. -/
def visit {α : Type} (step : α → α → Bool) : (queue unseen : List α) → List α
  | [], _ => []
  | x :: queue, unseen => x :: visit step (queue ++ successors step x unseen) (others step x unseen)
termination_by queue unseen => queue.length + unseen.length
decreasing_by
  have h := length_successors_add_others step x unseen
  simp only [List.length_append, List.length_cons]
  omega

/-- The start elements and everything in scope that steps lead to. -/
def closure {α : Type} [DecidableEq α] (scope : List α) (step : α → α → Bool) (start : List α) : List α :=
  visit step start (scope.filter (· ∉ start))

end NilFlow
