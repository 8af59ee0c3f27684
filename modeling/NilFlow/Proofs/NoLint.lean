import Mathlib.Data.List.Basic
import NilFlow.NoLint

/-!
# Suppressing comments, by their form

* `NoLint.Lists`: a line comment with a directive whose list names this linter, or all linters.
* `NoLint.directiveList?_eq_some_iff`: the list that is read is the longest one behind the directive word.
* `NoLint.suppresses_iff`: comments are found to suppress exactly when they have this form.
-/

namespace NilFlow

namespace NoLint

variable {α : Type} {comment : String} {list : List Char}

/-! ## The list of a directive -/

theorem after?_eq_some_iff {word text rest : List Char} : after? word text = some rest ↔ text = word ++ rest := by
  fun_induction after? word text with
  | case1 text => simp [eq_comm]
  | case2 => simp
  | case3 word c text ih => simpa using ih
  | case4 w word c text hne => simp [eq_comm, hne]

/-- A directive has blanks and the directive word before its list, and what stands behind does not go on with it. -/
theorem directiveList?_eq_some_iff : directiveList? comment = some list ↔ list ≠ [] ∧ ∃ blanks rest,
    comment.toList = "//".toList ++ (blanks ++ ("nolint:".toList ++ (list ++ rest))) ∧
      (∀ c ∈ blanks, blank c = true) ∧ (∀ c ∈ list, listChar c = true) ∧ ∀ c ∈ rest.head?, listChar c = false := by
  constructor
  · intro h
    unfold directiveList? at h
    split at h
    · cases h
    · rename_i text htext
      split at h
      · cases h
      · rename_i behind hbehind
        dsimp only at h
        split at h
        · cases h
        · rename_i hlist
          cases h
          refine ⟨by simpa using hlist, text.takeWhile blank, behind.dropWhile listChar, ?_, ?_, ?_, ?_⟩
          · rw [List.takeWhile_append_dropWhile, ← after?_eq_some_iff.1 hbehind, List.takeWhile_append_dropWhile]
            exact after?_eq_some_iff.1 htext
          · exact List.all_eq_true.1 List.all_takeWhile
          · exact List.all_eq_true.1 List.all_takeWhile
          · intro c hc
            have hstop := List.head?_dropWhile_not listChar behind
            rw [Option.mem_def.1 hc] at hstop
            exact hstop
  · rintro ⟨hlist, blanks, rest, hcomment, hblanks, hchars, hrest⟩
    have hafter : after? ['/', '/'] comment.toList = some (blanks ++ ("nolint:".toList ++ (list ++ rest))) :=
      after?_eq_some_iff.2 hcomment
    have hword : ("nolint:".toList ++ (list ++ rest)).dropWhile blank = "nolint:".toList ++ (list ++ rest) := rfl
    have hbehind : after? "nolint:".toList ("nolint:".toList ++ (list ++ rest)) = some (list ++ rest) :=
      after?_eq_some_iff.2 rfl
    have hstop : rest.takeWhile listChar = [] := by
      cases rest with
      | nil => rfl
      | cons c rest => exact List.takeWhile_cons_of_neg (by simp [hrest c rfl])
    have htake : (list ++ rest).takeWhile listChar = list := by
      rw [List.takeWhile_append_of_pos hchars, hstop, List.append_nil]
    have hne : list.isEmpty = false := by simpa using hlist
    unfold directiveList?
    simp only [hafter, List.dropWhile_append_of_pos hblanks, hword, hbehind, htake, hne]
    rfl

/-! ## Its items -/

theorem mem_of_mem_splitOn [BEq α] [LawfulBEq α] {x c : α} {l w : List α} (hw : w ∈ l.splitOn x) (hc : c ∈ w) :
    c ∈ l ∧ c ≠ x := by
  induction l generalizing w with
  | nil =>
    rw [List.splitOn_nil, List.mem_singleton] at hw
    rw [hw] at hc
    cases hc
  | cons a l ih =>
    rw [List.splitOn_cons_eq_if_modifyHead] at hw
    split at hw
    · rcases List.mem_cons.1 hw with rfl | hw
      · cases hc
      · exact ⟨List.mem_cons_of_mem a (ih hw hc).1, (ih hw hc).2⟩
    · rename_i ha
      obtain ⟨first, items, hitems⟩ := List.exists_cons_of_ne_nil (List.splitOn_ne_nil x l)
      rw [hitems, List.modifyHead_cons] at hw
      rcases List.mem_cons.1 hw with rfl | hw
      · rcases List.mem_cons.1 hc with rfl | hc
        · exact ⟨List.mem_cons_self, by simpa using ha⟩
        · have hrest := ih (hitems ▸ List.mem_cons_self) hc
          exact ⟨List.mem_cons_of_mem a hrest.1, hrest.2⟩
      · have hrest := ih (hitems ▸ List.mem_cons_of_mem first hw) hc
        exact ⟨List.mem_cons_of_mem a hrest.1, hrest.2⟩

theorem lt_of_listChar {c : Char} (h : listChar c = true) : c.toNat < 128 := by
  have hle : ∀ {d : Char}, c.val ≤ d.val → c.toNat ≤ d.toNat := fun h => UInt32.le_iff_toNat_le.1 h
  have h : ((c.val ≥ 'A'.val ∧ c.val ≤ 'Z'.val : Bool) || (c.val ≥ 'a'.val && c.val ≤ 'z'.val) ||
      (c.val ≥ '0'.val && c.val ≤ '9'.val) || c = ',' || c = '_' || c = '-') = true := h
  simp only [Bool.or_eq_true, Bool.and_eq_true, decide_eq_true_eq] at h
  rcases h with ((((⟨-, h⟩ | ⟨-, h⟩) | ⟨-, h⟩) | rfl) | rfl) | rfl
  · exact Nat.lt_of_le_of_lt (hle (d := 'Z') h) (by decide)
  · exact Nat.lt_of_le_of_lt (hle (d := 'z') h) (by decide)
  · exact Nat.lt_of_le_of_lt (hle (d := '9') h) (by decide)
  all_goals decide

/-- The characters of a list are ASCII, where the lower case is that of letters. -/
theorem lowerChar_of_listChar {c : Char} (h : listChar c = true) : lowerChar c = c.toLower := by
  have hall : ∀ n < 128, lowerChar (Char.ofNat n) = (Char.ofNat n).toLower := by decide +kernel
  have hc := hall c.toNat (lt_of_listChar h)
  rwa [Char.ofNat_toNat] at hc

theorem lowercase_eq_iff {item word : List Char} (h : ∀ c ∈ item, listChar c = true) :
    lowercase (String.ofList item) = String.ofList word ↔ item.map Char.toLower = word := by
  have hmap : item.map lowerChar = item.map Char.toLower :=
    List.map_congr_left fun c hc => lowerChar_of_listChar (h c hc)
  unfold lowercase
  rw [← String.toList_inj, String.toList_map, String.toList_ofList, String.toList_ofList, hmap]

/-! ## Suppressing comments -/

/-- A line comment that silences this linter: behind blanks, a directive whose comma-separated list has an item that is
the name of this linter or the word for all linters, in any case. -/
def Lists (comment : String) : Prop :=
  ∃ blanks items rest, comment.toList =
      "//".toList ++ (blanks ++ ("nolint:".toList ++ ([','].intercalate items ++ rest))) ∧
    (∀ c ∈ blanks, blank c = true) ∧ (∀ item ∈ items, ∀ c ∈ item, listChar c = true ∧ c ≠ ',') ∧
    (∀ c ∈ rest.head?, listChar c = false) ∧
    ∃ item ∈ items, item.map Char.toLower = linterName.toList ∨ item.map Char.toLower = "all".toList

theorem listChar_of_mem_intercalate {items : List (List Char)} (h : ∀ item ∈ items, ∀ c ∈ item, listChar c = true) :
    ∀ c ∈ [','].intercalate items, listChar c = true := by
  induction items with
  | nil => simp
  | cons item items ih =>
    have hrest := ih fun i hi => h i (List.mem_cons_of_mem item hi)
    cases items with
    | nil => simpa using h item List.mem_cons_self
    | cons next items =>
      intro c hc
      rw [List.intercalate_cons_cons, List.mem_append, List.mem_append, List.mem_singleton] at hc
      rcases hc with (hc | rfl) | hc
      · exact h item List.mem_cons_self c hc
      · rfl
      · exact hrest c hc

/-- A comment is found to suppress this linter exactly when it has the form of such a comment. -/
theorem suppresses_iff : suppresses comment = true ↔ Lists comment := by
  constructor
  · intro h
    unfold suppresses at h
    split at h
    · cases h
    · rename_i list hlist
      obtain ⟨-, blanks, rest, hcomment, hblanks, hchars, hrest⟩ := directiveList?_eq_some_iff.1 hlist
      obtain ⟨l, hl, hword⟩ := List.any_eq_true.1 h
      obtain ⟨item, hitem, rfl⟩ := List.mem_map.1 hl
      have hitems : ∀ i ∈ list.splitOn ',', ∀ c ∈ i, listChar c = true ∧ c ≠ ',' := fun i hi c hc =>
        ⟨hchars c (mem_of_mem_splitOn hi hc).1, (mem_of_mem_splitOn hi hc).2⟩
      refine ⟨blanks, list.splitOn ',', rest, ?_, hblanks, hitems, hrest, item, hitem, ?_⟩
      · rwa [List.intercalate_splitOn]
      · have hitem : ∀ c ∈ item, listChar c = true := fun c hc => (hitems item hitem c hc).1
        rw [← lowercase_eq_iff hitem, ← lowercase_eq_iff hitem, String.ofList_toList, String.ofList_toList]
        simpa using hword
  · rintro ⟨blanks, items, rest, hcomment, hblanks, hitems, hrest, item, hitem, hword⟩
    have hne : item ≠ [] := by
      rintro rfl
      rcases hword with h | h <;> cases h
    have hsplit : ([','].intercalate items).splitOn ',' = items :=
      List.splitOn_intercalate ',' (fun i hi hc => (hitems i hi ',' hc).2 rfl) (List.ne_nil_of_mem hitem)
    have hlist : directiveList? comment = some ([','].intercalate items) := by
      refine directiveList?_eq_some_iff.2 ⟨fun hnil => ?_, blanks, rest, hcomment, hblanks,
        listChar_of_mem_intercalate fun i hi c hc => (hitems i hi c hc).1, hrest⟩
      rw [hnil, List.splitOn_nil] at hsplit
      rw [← hsplit, List.mem_singleton] at hitem
      exact hne hitem
    have hchars : ∀ c ∈ item, listChar c = true := fun c hc => (hitems item hitem c hc).1
    rw [← lowercase_eq_iff hchars, ← lowercase_eq_iff hchars, String.ofList_toList, String.ofList_toList] at hword
    have hmem : String.ofList item ∈ NoLint.items ([','].intercalate items) :=
      List.mem_map_of_mem (hsplit.symm ▸ hitem)
    simp only [suppresses, hlist]
    exact List.any_eq_true.2 ⟨_, hmem, by simpa using hword⟩

end NoLint

end NilFlow
