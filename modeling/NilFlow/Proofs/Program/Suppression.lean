import NilFlow.Program.SourceFile
import NilFlow.Proofs.NoLint

/-!
# Suppressed places

* `SourceFile.Silences`: a comment on the line of a position, at or behind it, that silences this linter.
* `SourceFile.Next`: the comment that the next comment group at or behind a position starts with.
* `SourceFile.nextHead?_eq_some_iff`: among groups in order, the search finds this comment.
* `SourceFile.suppressedAt_iff`: a position is suppressed exactly when this comment silences its line.
-/

namespace NilFlow

namespace SourceFile

variable {f : SourceFile} {p : Pos} {c : Comment}

/-- A comment on the line of a position, at or behind it, that silences this linter. -/
structure Silences (f : SourceFile) (p : Pos) (c : Comment) : Prop where
  mem : c ∈ f.comments.flatten
  le : p ≤ c.pos
  line : f.line c.pos = f.line p
  lists : NoLint.Lists c.text

/-- The comment that the next comment group at or behind a position starts with. -/
def Next (f : SourceFile) (p : Pos) (c : Comment) : Prop :=
  ∃ before rest behind, f.comments = before ++ (c :: rest) :: behind ∧ p ≤ c.pos ∧
    ∀ group ∈ before, ∀ d ∈ group.head?, d.pos < p

theorem Next.mem (h : f.Next p c) : c ∈ f.comments.flatten := by
  obtain ⟨before, rest, behind, hsplit, -⟩ := h
  simp [hsplit]

theorem Next.le (h : f.Next p c) : p ≤ c.pos := by
  obtain ⟨-, -, -, -, hle, -⟩ := h
  exact hle

theorem nextHead?_eq_some_iff (horder : f.groupHeads.Pairwise fun c d => c.pos ≤ d.pos) :
    f.nextHead? p = some c ↔ f.Next p c := by
  have hbehind : f.groupHeads.Pairwise fun c d => decide (d.pos < p) = true → decide (c.pos < p) = true := by
    refine horder.imp fun {c d} hcd hd => ?_
    exact decide_eq_true (Int.lt_of_le_of_lt hcd (of_decide_eq_true hd))
  unfold nextHead?
  rw [getElem?_lowerBound hbehind]
  unfold groupHeads Next
  rw [List.find?_filterMap, Option.bind_eq_some_iff]
  constructor
  · rintro ⟨group, hgroup, hhead⟩
    obtain ⟨hle, before, behind, hsplit, hbefore⟩ := List.find?_eq_some_iff_append.1 hgroup
    obtain ⟨rest, rfl⟩ : ∃ rest, group = c :: rest := by
      cases group with
      | nil => cases hhead
      | cons d rest => exact ⟨rest, by rw [Option.some.inj hhead]⟩
    refine ⟨before, rest, behind, hsplit, by simpa using hle, fun g hg d hd => ?_⟩
    have hpast := hbefore g hg
    simpa [Option.mem_def.1 hd] using hpast
  · rintro ⟨before, rest, behind, hsplit, hle, hbefore⟩
    refine ⟨c :: rest, List.find?_eq_some_iff_append.2 ?_, rfl⟩
    refine ⟨by simpa using hle, before, behind, hsplit, fun g hg => ?_⟩
    cases hd : g.head? with
    | none => rfl
    | some d => simpa using hbefore g hg d hd

/-- Where comment groups stand in order, a position is suppressed exactly when some comment on its line, at or behind
it, silences this linter and starts the next group. -/
theorem suppressedAt_iff (horder : f.groupHeads.Pairwise fun c d => c.pos ≤ d.pos) (p : Pos) :
    f.suppressedAt p = true ↔ ∃ c, f.Silences p c ∧ f.Next p c := by
  unfold suppressedAt
  split
  · rename_i c hc
    have hnext : f.Next p c := (nextHead?_eq_some_iff horder).1 hc
    rw [Bool.and_eq_true, decide_eq_true_eq, NoLint.suppresses_iff]
    constructor
    · rintro ⟨hline, hlists⟩
      exact ⟨c, ⟨hnext.mem, hnext.le, hline, hlists⟩, hnext⟩
    · rintro ⟨d, hd, hdnext⟩
      obtain rfl : c = d := Option.some.inj (hc.symm.trans ((nextHead?_eq_some_iff horder).2 hdnext))
      exact ⟨hd.line, hd.lists⟩
  · rename_i hnone
    refine iff_of_false Bool.false_ne_true ?_
    rintro ⟨c, -, hnext⟩
    rw [(nextHead?_eq_some_iff horder).2 hnext] at hnone
    cases hnone

/-- The file `var a *int //nolint:NilOpt`, a declaration of `b` and, below it, the comment `// nolint:gosec,all`. -/
def directives : SourceFile where
  name := "a.go"
  package := 0
  base := 1
  size := 70
  lineStarts := [0, 10, 11, 38, 39, 50, 70]
  generated := false
  comments := [[⟨23, "//nolint:NilOpt"⟩], [⟨51, "// nolint:gosec,all"⟩]]
  tree := none

/-- The directive on the line of `a` suppresses it, the one below `b` does not suppress `b`. -/
theorem suppressedAt_directives : directives.suppressedAt 16 = true ∧ directives.suppressedAt 44 = false := by
  have horder : directives.groupHeads.Pairwise fun c d => c.pos ≤ d.pos := by decide
  constructor
  · refine (suppressedAt_iff horder 16).2 ⟨⟨23, "//nolint:NilOpt"⟩, ⟨by decide, by decide, by decide, ?_⟩, ?_⟩
    · exact NoLint.suppresses_iff.1 (by decide +kernel)
    · exact ⟨[], [], [[⟨51, "// nolint:gosec,all"⟩]], rfl, by decide, by simp⟩
  · refine Bool.eq_false_iff.2 fun hsuppressed => ?_
    obtain ⟨c, hc, -⟩ := (suppressedAt_iff horder 44).1 hsuppressed
    have hlines : ∀ c ∈ directives.comments.flatten, directives.line c.pos ≠ directives.line 44 := by decide
    exact hlines c hc.mem hc.line

/-- The file `var A /* x */ *int //nolint:nilopt`. -/
def annotated : SourceFile where
  name := "p.go"
  package := 0
  base := 1
  size := 46
  lineStarts := [0, 10, 11, 46]
  generated := false
  comments := [[⟨18, "/* x */"⟩], [⟨31, "//nolint:nilopt"⟩]]
  tree := none

/-- Behind another comment on the line, a comment that silences this linter is overlooked. -/
theorem directive_overlooked : ¬ ∀ (f : SourceFile) (p : Pos), (f.groupHeads.Pairwise fun c d => c.pos ≤ d.pos) →
    (f.suppressedAt p = true ↔ ∃ c, f.Silences p c) := by
  intro h
  have hsilences : annotated.Silences 16 ⟨31, "//nolint:nilopt"⟩ :=
    ⟨by decide, by decide, by decide, NoLint.suppresses_iff.1 (by decide +kernel)⟩
  have hsuppressed : annotated.suppressedAt 16 = true := (h annotated 16 (by decide)).2 ⟨_, hsilences⟩
  exact absurd hsuppressed (by decide +kernel)

end SourceFile

end NilFlow
