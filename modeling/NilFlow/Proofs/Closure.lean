import Mathlib.Logic.Relation
import NilFlow.Closure

/-!
# The closure lists what can be reached

* `mem_visit`: visiting a queue lists what steps through the unseen elements lead to.
* `mem_closure`: the closure lists what steps through the scope lead to.
* `closure_closed`: no step through the scope leads out of it.
* `reach_iff`, `reach_singleton_iff`: that is what any number of steps leads to.
* `nodup_closure`: the closure lists nothing twice.
-/

namespace NilFlow

variable {α : Type} {step : α → α → Bool}

theorem Reach.mono {scope scope' start start' : List α} (hs : ∀ x ∈ start, Reach scope' step start' x)
    (hc : ∀ x y, Reach scope' step start' x → y ∈ scope → step x y = true → Reach scope' step start' y) {x : α}
    (h : Reach scope step start x) : Reach scope' step start' x := by
  induction h with
  | start h => exact hs _ h
  | next _ hy h ih => exact hc _ _ ih hy h

theorem Reach.mem {scope start : List α} {x : α} (h : Reach scope step start x) : x ∈ start ++ scope := by
  cases h with
  | start h => exact List.mem_append_left _ h
  | next _ hy _ => exact List.mem_append_right _ hy

theorem reach_iff {scope start : List α} {b : α} : Reach scope step start b ↔
    ∃ a ∈ start, Relation.ReflTransGen (fun x y => y ∈ scope ∧ step x y = true) a b := by
  constructor
  · intro h
    induction h with
    | start h => exact ⟨_, h, .refl⟩
    | next _ hy hstep ih =>
      obtain ⟨a, ha, hreach⟩ := ih
      exact ⟨a, ha, hreach.tail ⟨hy, hstep⟩⟩
  · rintro ⟨a, ha, h⟩
    induction h with
    | refl => exact .start ha
    | tail _ hstep ih => exact ih.next hstep.1 hstep.2

theorem reach_singleton_iff {scope : List α} {a b : α} :
    Reach scope step [a] b ↔ Relation.ReflTransGen (fun x y => y ∈ scope ∧ step x y = true) a b := by
  rw [reach_iff]
  constructor
  · rintro ⟨x, hx, h⟩
    rwa [List.mem_singleton.1 hx] at h
  · exact fun h => ⟨a, List.mem_singleton_self a, h⟩

/-- The first of the queue is visited, and what it steps to joins the queue: nothing that could be reached is lost. -/
theorem reach_cons_iff (x : α) (queue unseen : List α) (y : α) :
    Reach unseen step (x :: queue) y ↔
      y = x ∨ Reach (others step x unseen) step (queue ++ successors step x unseen) y := by
  constructor
  · intro h
    induction h with
    | @start z h =>
      rcases List.mem_cons.1 h with rfl | h
      · exact Or.inl rfl
      · exact Or.inr (.start (List.mem_append_left _ h))
    | @next a b _ hb hab ih =>
      by_cases hx : step x b = true
      · exact Or.inr (.start (List.mem_append_right _ (List.mem_filter.2 ⟨hb, hx⟩)))
      · rcases ih with rfl | ih
        · exact absurd hab hx
        · exact Or.inr (ih.next (List.mem_filter.2 ⟨hb, by simpa using hx⟩) hab)
  · rintro (rfl | h)
    · exact .start List.mem_cons_self
    · refine h.mono (fun z hz => ?_) fun a b ha hb hab => ha.next (List.mem_filter.1 hb).1 hab
      rcases List.mem_append.1 hz with hz | hz
      · exact .start (List.mem_cons_of_mem _ hz)
      · have hz := List.mem_filter.1 hz
        exact (Reach.start List.mem_cons_self).next hz.1 hz.2

theorem mem_visit (queue unseen : List α) (x : α) : x ∈ visit step queue unseen ↔ Reach unseen step queue x := by
  induction queue, unseen using visit.induct step with
  | case1 unseen =>
    rw [visit]
    refine ⟨fun h => absurd h (by simp), fun h => ?_⟩
    exact h.rec (fun h => absurd h (by simp)) fun _ _ _ ih => absurd ih (by simp)
  | case2 y queue unseen ih => rw [visit, List.mem_cons, ih, reach_cons_iff]

/-- What is moved to the queue leaves the unseen elements, so that nothing is visited twice. -/
theorem nodup_visit (queue unseen : List α) (h : (queue ++ unseen).Nodup) : (visit step queue unseen).Nodup := by
  induction queue, unseen using visit.induct step with
  | case1 unseen =>
    rw [visit]
    exact List.nodup_nil
  | case2 x queue unseen ih =>
    have hmoved : ((queue ++ successors step x unseen) ++ others step x unseen).Perm (queue ++ unseen) := by
      rw [List.append_assoc]
      exact (List.filter_append_perm (step x) unseen).append_left queue
    obtain ⟨hx, hrest⟩ := List.nodup_cons.1 h
    rw [visit]
    refine List.nodup_cons.2 ⟨fun hmem => hx ?_, ih (hmoved.nodup_iff.2 hrest)⟩
    exact hmoved.mem_iff.1 ((mem_visit _ _ x).1 hmem).mem

variable [DecidableEq α]

theorem nodup_closure {scope start : List α} (hscope : scope.Nodup) (hstart : start.Nodup) :
    (closure scope step start).Nodup := by
  refine nodup_visit _ _ (List.nodup_append.2 ⟨hstart, hscope.filter _, ?_⟩)
  rintro x hx y hy rfl
  simpa [hx] using (List.mem_filter.1 hy).2

theorem mem_closure (scope start : List α) (x : α) : x ∈ closure scope step start ↔ Reach scope step start x := by
  unfold closure
  rw [mem_visit]
  constructor
  · intro h
    exact h.mono (fun _ hz => .start hz) fun _ _ ha hb hab => ha.next (List.mem_filter.1 hb).1 hab
  · intro h
    refine h.mono (fun _ hz => .start hz) fun a b ha hb hab => ?_
    by_cases hs : b ∈ start
    · exact .start hs
    · exact ha.next (List.mem_filter.2 ⟨hb, by simpa using hs⟩) hab

theorem start_mem_closure {scope start : List α} {x : α} (h : x ∈ start) : x ∈ closure scope step start :=
  (mem_closure scope start x).2 (.start h)

theorem closure_closed {scope start : List α} {x y : α} (hx : x ∈ closure scope step start) (hy : y ∈ scope)
    (h : step x y = true) : y ∈ closure scope step start :=
  (mem_closure scope start y).2 (((mem_closure scope start x).1 hx).next hy h)

end NilFlow
