import NilFlow.Proofs.Harvest.Endings
import NilFlow.Proofs.Harvest.Halting

/-!
# The verdict of a harvest

* `Status.severity_le_iff`, `Status.fatal_iff_of_mem`: the severity of a status bounds those of its findings, so that a
  status with a fatal finding is fatal unless another finding is graded above.
* `Classifier.Ends.fatal`: what aborts a harvest is of a kind that ends a run.
* `Classifier.Graded`: every finding has the severity that the settings give its kind.
* `Classifier.harvest_verdict`: a harvest is incomplete exactly when it has such a finding, which is then the last one.
-/

namespace NilFlow

/-! ## Severities -/

namespace Severity

variable {a b c : Severity}

protected theorem le_refl (a : Severity) : a ≤ a := UInt8.le_refl a.rank

protected theorem le_antisymm (hab : a ≤ b) (hba : b ≤ a) : a = b := by
  obtain ⟨a⟩ := a
  obtain ⟨b⟩ := b
  exact congrArg Severity.mk (UInt8.le_antisymm hab hba)

theorem worse_le_iff : a.worse b ≤ c ↔ a ≤ c ∧ b ≤ c := by
  show (a.worse b).rank ≤ c.rank ↔ a.rank ≤ c.rank ∧ b.rank ≤ c.rank
  unfold worse
  split
  · rename_i h
    have h : a.rank < b.rank := h
    exact ⟨fun hb => ⟨UInt8.le_trans (UInt8.le_of_lt h) hb, hb⟩, fun hb => hb.2⟩
  · rename_i h
    have h : b.rank ≤ a.rank := UInt8.not_lt.1 h
    exact ⟨fun ha => ⟨ha, UInt8.le_trans h ha⟩, fun ha => ha.1⟩

end Severity

theorem FailureKind.fatal_iff (kind : FailureKind) :
    kind.fatal = true ↔ kind ∈ [FailureKind.missingBinding, .modelError, .noCandidates] := by
  cases kind <;> simp [fatal]

namespace Status

theorem foldl_worse_le_iff {c : Severity} : ∀ (es : List Entry) (a : Severity),
    es.foldl (fun a e => a.worse e.severity) a ≤ c ↔ a ≤ c ∧ ∀ e ∈ es, e.severity ≤ c
  | [], a => by simp
  | e :: es, a => by
    rw [List.foldl_cons, foldl_worse_le_iff es, Severity.worse_le_iff, List.forall_mem_cons, and_assoc]

theorem severity_le_iff {s : Status} {c : Severity} : s.severity ≤ c ↔ ∀ e ∈ s.entries, e.severity ≤ c := by
  have hok : Severity.ok ≤ c := UInt8.zero_le
  unfold severity
  rw [foldl_worse_le_iff]
  exact and_iff_right hok

/-- A status with a fatal finding is fatal exactly when no finding is graded above. -/
theorem fatal_iff_of_mem {s : Status} {e : Entry} (he : e ∈ s.entries) (hs : e.severity = .fatal) :
    s.fatal = true ↔ ∀ e ∈ s.entries, e.severity.Declared := by
  unfold fatal
  rw [decide_eq_true_iff]
  constructor
  · intro h
    exact severity_le_iff.1 (h ▸ Severity.le_refl _)
  · intro h
    have hle : e.severity ≤ s.severity := severity_le_iff.1 (Severity.le_refl s.severity) e he
    exact Severity.le_antisymm (severity_le_iff.2 h) (hs ▸ hle)

end Status

namespace Classifier

variable {k : Classifier} {root : Root} {polls : Option Nat} {r r' : Run} {h : Harvest} {v : Variable} {f : Failure}

/-! ## What aborts a harvest -/

theorem fatal_of_seedAt {s : Seeds} {c : Cursor} (h : k.seedAt s c = .error f) : f.fatal = true := by
  unfold seedAt at h
  split at h
  · split at h
    · unfold seedNil at h
      dsimp only at h
      split at h
      · cases h
      · split at h
        · rename_i hfatal
          cases h
          exact hfatal
        · split at h
          · cases h
          · split at h
            · rename_i g hg
              cases h
              exact (Option.filter_eq_some_iff.1 hg).2
            · split at h <;> cases h
    · cases h
  · cases h
  · split at h <;> cases h
  · cases h

theorem fatal_of_seedAll : ∀ {cs : List Cursor} {s : Seeds}, (k.seedAll cs s).2 = some f → f.fatal = true
  | [], s, h => by cases h
  | c :: cs, s, h => by
    unfold seedAll at h
    split at h
    · rename_i hc
      cases h
      exact fatal_of_seedAt hc
    · exact fatal_of_seedAll h

theorem Ends.fatal (h : k.Ends root f) : f.fatal = true := by
  cases h with
  | seeding hf => exact fatal_of_seedAll hf
  | noCandidates hf =>
    unfold Failure.fatal
    rw [hf]
    rfl
  | searching _ hfatal => exact hfatal

theorem severity_entry (hf : f.fatal = true) : (k.settings.entry f).severity = .fatal := by
  have hfatal : f.kind.fatal = true := hf
  show k.settings.severities.of f.kind = .fatal
  unfold Severities.of
  split
  · rfl
  · rw [if_pos hfatal]

/-! ## Graded findings -/

/-- Every finding is a failure with the severity that the settings give its kind. -/
def Graded (k : Classifier) (s : Status) : Prop := ∀ e ∈ s.entries, ∃ f, e = k.settings.entry f

theorem graded_record (hr : k.Graded r.status) (f : Failure) : k.Graded (k.record r f).status := by
  intro e he
  rcases List.mem_append.1 he with he | he
  · exact hr e he
  · exact ⟨f, List.mem_singleton.1 he⟩

theorem graded_foldl_record : ∀ (fs : List Failure) {r : Run}, k.Graded r.status →
    k.Graded (fs.foldl k.record r).status
  | [], _, hr => hr
  | f :: fs, _, hr => graded_foldl_record fs (graded_record hr f)

theorem graded_begin (hr : k.Graded r.status) : k.Graded (k.begin r root).1.status := by
  unfold begin
  split
  · exact hr
  · exact graded_foldl_record _ hr

theorem Round.graded (h : k.Round r v r') (hr : k.Graded r.status) : k.Graded r'.status := by
  obtain ⟨polled, work, hp, -, hs⟩ := h
  have hlog : k.Graded (k.logSearch { polled with work := work } v (k.searchVariable v)).status := by
    rw [status_logSearch]
    exact (status_of_poll? hp).symm ▸ hr
  rcases serve_cases hs with ⟨-, rfl⟩ | ⟨-, f, rfl⟩
  · exact hlog
  · exact graded_record hlog f

theorem Rounds.graded {vs : List Variable} (h : k.Rounds r vs r') (hr : k.Graded r.status) : k.Graded r'.status := by
  induction h with
  | none => exact hr
  | more hround _ ih => exact ih (hround.graded hr)

theorem graded_finish (hr : k.Graded r.status) : k.Graded (k.finish r root).status := by
  intro e he
  rcases mem_status_finish.1 he with he | ⟨g, hg, he⟩
  · exact hr e he
  · obtain ⟨f, hf, -⟩ := GroupInput.exists_failure_of_mem_build hg he
    exact ⟨f, hf⟩

/-- Whatever a harvest reports, it grades as the settings say. -/
theorem graded_harvest (hh : k.harvest root polls = .ok h) : k.Graded h.status := by
  unfold harvest at hh
  split at hh
  · cases hh
  · rename_i polled hp
    have hpolled : k.Graded polled.status := by
      rw [status_of_poll? hp]
      intro e he
      cases he
    have hbegin : k.Graded (k.begin polled root).1.status := graded_begin hpolled
    split at hh
    · rename_i r f hb
      rw [hb] at hbegin
      cases hh
      exact graded_record hbegin f
    · rename_i r hb
      rw [hb] at hbegin
      obtain ⟨vs, last, tail, hr, hlast⟩ := k.exists_halts r
      have hgraded := hr.graded hbegin
      generalize k.exhaust r = out at hh hlast
      cases hlast with
      | finished _ =>
        cases hh
        exact graded_finish hgraded
      | cancelled _ _ => cases hh
      | @failed v work polled f hn hp hs =>
        cases hh
        exact graded_record (show k.Graded polled.status from (status_of_poll? hp).symm ▸ hgraded) f

/-! ## The verdict -/

/-- A harvest has an outcome unless it is told to stop. The outcome is incomplete exactly when a finding is of a kind
that ends a run; then there are no groups, this finding is the only one of such a kind, the last and fatal, and the
status is fatal exactly when no finding before it is graded above. So it is whenever declared severities are chosen. -/
theorem harvest_verdict (k : Classifier) (root : Root) : (∃ h, k.harvest root none = .ok h) ∧
    ∀ polls h, k.harvest root polls = .ok h →
      (h.complete = false ↔
        ∃ e ∈ h.status.entries, e.kind ∈ [FailureKind.missingBinding, .modelError, .noCandidates]) ∧
      (h.complete = false → h.groups = [] ∧ ∃ es e, h.status.entries = es ++ [e] ∧
        e.kind ∈ [FailureKind.missingBinding, .modelError, .noCandidates] ∧ e.severity = .fatal ∧
        (∀ e ∈ es, e.kind ∉ [FailureKind.missingBinding, .modelError, .noCandidates]) ∧
        (h.status.fatal = true ↔ ∀ e ∈ es, e.severity.Declared)) ∧
      ((∀ kind, (k.settings.severities.of kind).Declared) → h.complete = false → h.status.fatal = true) := by
  refine ⟨k.exists_harvest root, fun polls h hh => ?_⟩
  simp only [← FailureKind.fatal_iff, Bool.not_eq_true]
  have hgraded : k.Graded h.status := graded_harvest hh
  rcases harvest_cases hh with ⟨hcomplete, hcalm⟩ | ⟨r, f, rfl, hcalm, hends⟩
  · have hnone : ¬ ∃ e ∈ h.status.entries, e.kind.fatal = true := by
      rintro ⟨e, he, hfatal⟩
      rw [hcalm e he] at hfatal
      cases hfatal
    simp [hcomplete, hnone]
  · -- aborted: one entry is added to findings that end no run
    have hlast : k.settings.entry f ∈ (k.abort r f).status.entries := List.mem_append_right _ List.mem_cons_self
    have hseverity := severity_entry (k := k) hends.fatal
    have hfatal : (k.abort r f).status.fatal = true ↔ ∀ e ∈ r.status.entries, e.severity.Declared := by
      rw [Status.fatal_iff_of_mem hlast hseverity]
      show (∀ e ∈ r.status.entries ++ [k.settings.entry f], e.severity.Declared) ↔ _
      simp only [List.forall_mem_append, List.forall_mem_singleton, hseverity]
      exact and_iff_left (Severity.le_refl _)
    refine ⟨iff_of_true rfl ⟨_, hlast, hends.fatal⟩,
      fun _ => ⟨rfl, r.status.entries, k.settings.entry f, rfl, hends.fatal, hseverity, hcalm, hfatal⟩,
      fun hdeclared _ => hfatal.2 fun e he => ?_⟩
    obtain ⟨g, rfl⟩ := hgraded e (List.mem_append_left _ he)
    exact hdeclared g.kind

end Classifier

/-! ## A conversion without candidates -/

namespace Converted

/-- The syntax of `var A = (*int)(nil)`. -/
def source : Node :=
  .mk ⟨none, .file, ⟨1, 31⟩, {}⟩ [
    .mk ⟨some .name, .ident, ⟨9, 10⟩, { name := "p" }⟩ [],
    .mk ⟨some .decls, .genDecl, ⟨12, 31⟩, {}⟩ [
      .mk ⟨some .specs, .valueSpec, ⟨16, 31⟩, {}⟩ [
        .mk ⟨some .names, .ident, ⟨16, 17⟩, { name := "A", declares := some 0, type := some 0 }⟩ [],
        .pointerConversion .values ⟨20, 31⟩ 0 1 1
          (.mk ⟨some .args, .ident, ⟨27, 30⟩, { name := "nil", type := some 2, uses := some 2 }⟩ [])]]]

def typing : Typing where
  types := #[⟨.pointer 1, none⟩, ⟨.basic "int", none⟩, ⟨.basic "untyped nil", none⟩]
  objects := #[⟨"A", 16, some ⟨0, "p"⟩, .var 0 .var none (some "A")⟩, ⟨"int", 0, none, .typeName 1⟩,
    ⟨"nil", 0, none, .nil⟩]
  scope := [⟨0, "A", "", 0⟩]
  impls := []

def files : List SourceFile := [⟨"p", 0, 1, 31, [0, 10, 11, 31], false, [], some source, []⟩]

def packages : List Package := [⟨⟨0, "p"⟩, files, false⟩]

/-- The program with some severity for conversions of nil. -/
def classifier (conversions : Severity) : Classifier :=
  ⟨.ofPackages typing files packages false,
    { Settings.standard with severities := Severities.standard.set .disallowed conversions }⟩

def root : Root := Program.wholeRoot (.ofPackages typing files packages false) packages

theorem exists_outcome {α : Type} (k : Classifier) (view : Harvest → α) {a : α}
    (h : (k.harvest root none).toOption.map view = some a) : ∃ h, k.harvest root none = .ok h ∧ view h = a := by
  obtain ⟨h, hh, hview⟩ := Option.map_eq_some_iff.1 h
  refine ⟨h, ?_, hview⟩
  cases hrun : k.harvest root none with
  | error e => simp [hrun, Except.toOption] at hh
  | ok h' => simpa [hrun, Except.toOption] using hh

/-- With a declared severity for the conversion that rules out the only candidate, the outcome is fatal. -/
theorem incomplete_fatal : ∃ h, (classifier .error).harvest root none = .ok h ∧ h.complete = false ∧
    h.status.entries.map (·.kind) = [.disallowed, .noCandidates] ∧ h.status.fatal = true := by
  obtain ⟨h, hh, hview⟩ := exists_outcome (classifier .error)
    (fun h => (h.complete, h.status.entries.map (·.kind))) (a := (false, [.disallowed, .noCandidates]))
    (by decide +kernel)
  obtain ⟨hcomplete, hkinds⟩ := Prod.mk.inj hview
  have hdeclared : ∀ kind, ((classifier .error).settings.severities.of kind).Declared := by
    intro kind
    cases kind with
    | unlisted n => exact Severity.le_refl _
    | _ => decide
  obtain ⟨-, hverdict⟩ := (classifier .error).harvest_verdict root
  exact ⟨h, hh, hcomplete, hkinds, (hverdict none h hh).2.2 hdeclared hcomplete⟩

/-- Graded above the fatal severity, it hides the fatal finding: the outcome is incomplete and not fatal. -/
theorem incomplete_not_fatal : ∃ h, (classifier ⟨5⟩).harvest root none = .ok h ∧ h.complete = false ∧
    h.status.entries.map (fun e => (e.kind, e.severity)) = [(.disallowed, ⟨5⟩), (.noCandidates, .fatal)] ∧
      h.status.fatal = false := by
  obtain ⟨h, hh, hview⟩ := exists_outcome (classifier ⟨5⟩)
    (fun h => (h.complete, h.status.entries.map (fun e => (e.kind, e.severity)), h.status.fatal))
    (a := (false, [(.disallowed, ⟨5⟩), (.noCandidates, .fatal)], false)) (by decide +kernel)
  simp only [Prod.mk.injEq] at hview
  exact ⟨h, hh, hview⟩

end Converted

end NilFlow
