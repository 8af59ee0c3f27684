import NilFlow.Program.Basic

/-!
# Searches of a program

* `Program.Writable`: the source at a position may be edited.
* `Program.search_eq_ok_iff`: a search succeeds exactly when the declaration and all occurrences outside doc comments
  may be edited, and it lists all occurrences.
-/

namespace NilFlow

/-! ## Writable source -/

namespace Program

variable {p : Program} {v : Variable}

/-- The source at a position may be edited: it lies in a file in scope, of a package that is not read-only, and it is
not generated unless generated files may be edited. -/
def Writable (p : Program) (pos : Pos) : Prop :=
  ∃ package file, p.fileAt? pos = some (package, file) ∧ package.readOnly = false ∧
    (file.generated = true → p.generated = true)

theorem obstacle?_eq_none_iff {pos : Pos} {span : Span} : p.obstacle? v pos span = none ↔ p.Writable pos := by
  unfold obstacle? Writable
  split
  · rename_i hf
    simp [hf]
  · rename_i package file hf
    constructor
    · intro h
      split at h
      · cases h
      · rename_i hr
        split at h
        · cases h
        · rename_i hg
          exact ⟨package, file, hf, by simpa using hr, by simpa using hg⟩
    · rintro ⟨package', file', hf', hr, hg⟩
      rw [hf] at hf'
      cases hf'
      rw [hr, if_neg (by simp), if_neg (by simpa using hg)]

theorem declarationObstacle?_eq_none_iff :
    p.declarationObstacle? v = none ↔ v.located = true ∧ p.Writable v.pos := by
  unfold declarationObstacle?
  split
  · rename_i hl
    rw [obstacle?_eq_none_iff]
    exact (and_iff_right hl).symm
  · rename_i hl
    simp [hl]

/-- A search succeeds exactly when everything it finds may be edited, doc comments apart, and the variable does not
belong to a function literal. Then it lists all occurrences. -/
theorem search_eq_ok_iff {ms : List Match} : p.search v = .ok ms ↔ (v.located = true ∧ p.Writable v.pos) ∧
    p.ofLiteral v = false ∧ (∀ m ∈ p.index.occurrencesOf v, m.inDocComment = false → p.Writable m.span.start) ∧
      ms = p.index.occurrencesOf v := by
  have hall : ((p.index.occurrencesOf v).filter (!·.inDocComment)).findSome?
      (fun m => p.obstacle? v m.span.start m.span) = none ↔
        ∀ m ∈ p.index.occurrencesOf v, m.inDocComment = false → p.Writable m.span.start := by
    rw [List.findSome?_eq_none_iff]
    constructor
    · intro h m hm hd
      exact obstacle?_eq_none_iff.1 (h m (List.mem_filter.2 ⟨hm, by simp [hd]⟩))
    · intro h m hm
      obtain ⟨hm, hd⟩ := List.mem_filter.1 hm
      exact obstacle?_eq_none_iff.2 (h m hm (by simpa using hd))
  rw [← declarationObstacle?_eq_none_iff, ← hall]
  unfold search
  cases hd : p.declarationObstacle? v with
  | some f => simp
  | none =>
    cases hl : p.ofLiteral v with
    | true => simp
    | false =>
      rw [if_neg (by simp)]
      dsimp only
      cases hf : ((p.index.occurrencesOf v).filter (!·.inDocComment)).findSome?
        (fun m => p.obstacle? v m.span.start m.span) with
      | some f => simp
      | none => simp [eq_comm]

end Program

end NilFlow
