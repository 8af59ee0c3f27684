/-!
# Binary search

* `lowerBound`: the place where the items left behind end, found by halving an interval of places.
* `lowerBound_spec`: where the search ends, whatever the order of the items.
* `getElem?_lowerBound`: in an ordered list it ends at the first item that is not left behind.
-/

namespace NilFlow

/-- The place where the items left behind end, searched between two places by halving. -/
def lowerBound (behind : Nat → Bool) (low high : Nat) : Nat :=
  if low < high then
    let middle := (low + high) / 2
    if behind middle then lowerBound behind (middle + 1) high else lowerBound behind low middle
  else low
termination_by high - low

/-- The search ends between its limits, behind an item that is left behind and at one that is not, unless it ends at a
limit. -/
theorem lowerBound_spec (behind : Nat → Bool) {low high : Nat} (h : low ≤ high) :
    low ≤ lowerBound behind low high ∧ lowerBound behind low high ≤ high ∧
      (lowerBound behind low high = low ∨ behind (lowerBound behind low high - 1) = true) ∧
      (lowerBound behind low high = high ∨ behind (lowerBound behind low high) = false) := by
  fun_induction lowerBound behind low high with
  | case1 low high hlt middle hbehind ih =>
    obtain ⟨hlow, hhigh, hbefore, hat⟩ := ih (by omega)
    refine ⟨by omega, hhigh, Or.inr ?_, hat⟩
    rcases hbefore with heq | hbefore
    · rw [heq]
      exact hbehind
    · exact hbefore
  | case2 low high hlt middle hbehind ih =>
    obtain ⟨hlow, hhigh, hbefore, hat⟩ := ih (by omega)
    refine ⟨hlow, by omega, hbefore, Or.inr ?_⟩
    rcases hat with heq | hat
    · rw [heq]
      exact Bool.eq_false_iff.2 hbehind
    · exact hat
  | case3 low high hge => exact ⟨Nat.le_refl low, h, Or.inl rfl, Or.inl (by omega)⟩

/-- In a list whose items left behind come first, the search finds the first item that is not. -/
theorem getElem?_lowerBound {α : Type} {behind : α → Bool} {l : List α}
    (hl : l.Pairwise fun a b => behind b = true → behind a = true) :
    l[lowerBound (fun i => l[i]?.any behind) 0 l.length]? = l.find? fun a => !behind a := by
  obtain ⟨-, hle, hbefore, hat⟩ := lowerBound_spec (fun i => l[i]?.any behind) (Nat.zero_le l.length)
  generalize lowerBound (fun i => l[i]?.any behind) 0 l.length = n at hle hbefore hat
  have hleft : ∀ a ∈ l.take n, behind a = true := by
    intro a ha
    obtain ⟨i, hi, rfl⟩ := List.mem_take_iff_getElem.1 ha
    rcases hbefore with rfl | hbefore
    · omega
    · rw [List.getElem?_eq_getElem (by omega), Option.any_some] at hbefore
      rcases Nat.lt_or_eq_of_le (show i ≤ n - 1 by omega) with hlt | rfl
      · exact List.pairwise_iff_getElem.1 hl i (n - 1) (by omega) (by omega) hlt hbefore
      · exact hbefore
  have hnone : (l.take n).find? (fun a => !behind a) = none := by
    simpa using hleft
  have hsplit : l.find? (fun a => !behind a) = (l.drop n).find? fun a => !behind a := by
    conv => lhs; rw [← List.take_append_drop n l]
    rw [List.find?_append, hnone, Option.none_or]
  rw [hsplit]
  rcases Nat.lt_or_eq_of_le hle with hlt | rfl
  · have hright : behind l[n] = false := by
      rcases hat with rfl | hat
      · omega
      · simpa [hlt] using hat
    rw [List.drop_eq_getElem_cons hlt, List.find?_cons_of_pos (by simp [hright]), List.getElem?_eq_getElem hlt]
  · simp

end NilFlow
