import NilFlow.Proofs.Harvest.Verdict
import NilFlow.Report.Diagnostics
import NilFlow.Report.Sarif

/-!
# Convertible groups in reports

Two reports tell a convertible group by different tests: a log by the list of its findings, messages by their worst
severity.

* `SarifLog.filter_ofReport`, `Program.filter_diagnostics`: what either report says of groups.
* `Classifier.severity_of_mem_group`: the findings of groups are of two kinds.
* `Classifier.convertible_groups`: both reports list the same groups exactly when no group has findings that are all
  informational; a group that neither lists has a graver finding, which the run reports.
-/

namespace NilFlow

/-! ## Names and codes -/

/-- A number is not written as a word that is no name and does not start with the label. -/
theorem Enumeration.name_ne {e : Enumeration} {word : String} (hname : word ∉ e.names)
    (hlabel : ¬ e.label.toList <+: word.toList) (n : Nat) : e.name n ≠ word := by
  rintro rfl
  unfold name at hname hlabel
  split at hname
  · rename_i hn
    exact hname (List.mem_of_getElem? hn)
  · rename_i hn
    rw [hn] at hlabel
    refine hlabel ⟨("(" ++ n.repr ++ ")").toList, ?_⟩
    simp only [String.toList_append, List.append_assoc]

theorem FailureKind.code_ne_groupId (kind : FailureKind) : kind.code ≠ SarifRule.groupId :=
  Enumeration.name_ne (by decide) (by decide) kind.number

theorem Severity.name_ne_group (s : Severity) : s.name ≠ "group" :=
  Enumeration.name_ne (by decide) (by decide) s.rank.toNat

/-! ## What a log says of groups -/

theorem filter_eq_filter_iff {α : Type} {p q : α → Bool} {l : List α} :
    l.filter p = l.filter q ↔ ∀ a ∈ l, (p a = true ↔ q a = true) := by
  constructor
  · intro h a ha
    have hmem : a ∈ l.filter p ↔ a ∈ l.filter q := by rw [h]
    simpa [List.mem_filter, ha] using hmem
  · intro h
    exact List.filter_congr fun a ha => Bool.eq_iff_iff.2 (h a ha)

namespace SarifLog

/-- The results of the group rule are those of the groups without findings. -/
theorem filter_ofReport {r : Report} (hcode : ∀ e ∈ r.status, e.code ≠ SarifRule.groupId) :
    (ofReport r).results.filter (·.rule = SarifRule.groupId) =
      (r.groupList.filter (·.status.isEmpty)).map groupResult := by
  have hgroups : ((r.groupList.filter (·.status.isEmpty)).map groupResult).filter (·.rule = SarifRule.groupId) =
      (r.groupList.filter (·.status.isEmpty)).map groupResult := by
    rw [List.filter_eq_self]
    intro result hresult
    obtain ⟨g, -, rfl⟩ := List.mem_map.1 hresult
    rfl
  have hentries : (r.status.map entryResult).filter (·.rule = SarifRule.groupId) = [] := by
    rw [List.filter_eq_nil_iff]
    intro result hresult
    obtain ⟨e, he, rfl⟩ := List.mem_map.1 hresult
    rw [decide_eq_true_iff]
    exact hcode e he
  show List.filter _ (_ ++ _) = _
  rw [List.filter_append, hgroups, hentries, List.append_nil]

/-- Of a harvest, whatever the threshold, these are the groups without findings. -/
theorem filter_ofHarvest (p : Program) (h : Harvest) (base : String) (threshold : Severity) :
    (ofReport ((Report.ofHarvest p h base).above threshold)).results.filter (·.rule = SarifRule.groupId) =
      (h.groups.filter (·.status.entries.isEmpty)).map fun g => groupResult (.ofGroup p base g) := by
  rw [filter_ofReport]
  · show ((h.groups.map (Report.Group.ofGroup p base)).filter (·.status.isEmpty)).map groupResult = _
    rw [List.filter_map, List.map_map]
    congr 2
    funext g
    exact List.isEmpty_map
  · intro e he
    obtain ⟨finding, -, rfl⟩ := List.mem_map.1 (List.mem_filter.1 he).1
    exact finding.kind.code_ne_groupId

end SarifLog

/-! ## What messages say of groups -/

namespace Program

variable (p : Program)

theorem groupDiagnostic?_eq_none_iff (g : Group) :
    p.groupDiagnostic? g = none ↔ ∀ first ∈ g.vars.head?, p.silent first.pos = true := by
  unfold groupDiagnostic?
  cases g.vars with
  | nil => simp
  | cons first others => simp

theorem category_groupDiagnostic? {g : Group} {d : Diagnostic} (h : p.groupDiagnostic? g = some d) :
    d.category = "group" := by
  unfold groupDiagnostic? at h
  split at h
  · cases h
  · split at h
    · cases h
    · cases h
      rfl

theorem category_findingDiagnostic? {threshold : Severity} {e : Entry} {d : Diagnostic}
    (h : p.findingDiagnostic? threshold e = some d) : d.category ≠ "group" := by
  unfold findingDiagnostic? internalDiagnostic? entryDiagnostic? at h
  split at h
  · split at h <;> cases h
    exact (by decide : "internal" ≠ "group")
  · split at h
    · split at h <;> cases h
      exact e.severity.name_ne_group
    · cases h

/-- The messages about groups are those of the groups that are ok. -/
theorem filter_diagnostics (h : Harvest) (threshold : Severity) :
    (p.diagnostics h threshold).filter (·.category = "group") =
      (h.groups.filter (·.status.ok)).filterMap p.groupDiagnostic? := by
  have hgroups : ((h.groups.filter (·.status.ok)).filterMap p.groupDiagnostic?).filter (·.category = "group") =
      (h.groups.filter (·.status.ok)).filterMap p.groupDiagnostic? := by
    rw [List.filter_eq_self]
    intro d hd
    obtain ⟨g, -, hg⟩ := List.mem_filterMap.1 hd
    simpa using p.category_groupDiagnostic? hg
  have hentries : (h.status.entries.filterMap (p.findingDiagnostic? threshold)).filter (·.category = "group") = [] := by
    rw [List.filter_eq_nil_iff]
    intro d hd
    obtain ⟨e, -, he⟩ := List.mem_filterMap.1 hd
    simpa using p.category_findingDiagnostic? he
  unfold diagnostics
  rw [List.filter_append, hgroups, hentries, List.append_nil]

end Program

/-! ## Findings of groups -/

namespace Status

variable {s : Status}

theorem ok_iff : s.ok = true ↔ ∀ e ∈ s.entries, e.severity ≤ .info := by
  unfold ok
  rw [decide_eq_true_iff, severity_le_iff]

theorem ok_eq_false_iff : s.ok = false ↔ ∃ e ∈ s.entries, .info < e.severity := by
  rw [← Bool.not_eq_true, ok_iff]
  simp only [not_forall, exists_prop]
  exact exists_congr fun e => and_congr_right fun _ => UInt8.not_le

end Status

namespace Classifier

variable {k : Classifier} {root : Root} {polls : Option Nat} {h : Harvest} {g : Group} {e : Entry}

theorem completes_of_mem_groups (hh : k.harvest root polls = .ok h) (hg : g ∈ h.groups) :
    ∃ served last, k.Completes root polls served last h := by
  rcases harvest_cases hh with ⟨hcomplete, -⟩ | ⟨r, f, rfl, -⟩
  · exact harvest_complete_iff.1 ⟨hh, hcomplete⟩
  · cases hg

/-- A finding of a group is graded as one of the two kinds that speak against an element. -/
theorem severity_of_mem_group (hh : k.harvest root polls = .ok h) (hg : g ∈ h.groups) (he : e ∈ g.status.entries) :
    e.severity = k.settings.severities.of .ineligible ∨ e.severity = k.settings.severities.of .foreignPackage := by
  obtain ⟨served, last, hc⟩ := completes_of_mem_groups hh hg
  rw [hc.outcome] at hg
  obtain ⟨f, rfl, hf⟩ := GroupInput.exists_failure_of_mem_build hg he
  exact hf.imp (congrArg k.settings.severities.of) (congrArg k.settings.severities.of)

theorem mem_status_of_mem_group (hh : k.harvest root polls = .ok h) (hg : g ∈ h.groups)
    (he : e ∈ g.status.entries) : e ∈ h.status.entries := by
  obtain ⟨served, last, hc⟩ := completes_of_mem_groups hh hg
  rw [hc.outcome] at hg ⊢
  exact mem_status_finish.2 (Or.inr ⟨g, hg, he⟩)

/-! ## Convertible groups -/

/-- Whatever is harvested, and for each threshold, a log has results for the groups without findings, and messages are
given about the groups without a finding above the informational, unless they are suppressed at the first element.
Both are the same groups exactly when each group with findings has one above the informational, as when the two kinds
of findings that groups have are graded above it. A group that is not ok has such a finding, which is listed among the
findings of the whole report. -/
theorem convertible_groups (hh : k.harvest root polls = .ok h) (base : String) (threshold : Severity) :
    (SarifLog.ofReport ((Report.ofHarvest k.program h base).above threshold)).results.filter
        (·.rule = SarifRule.groupId) =
      ((h.groups.filter (·.status.entries.isEmpty)).map fun g =>
        SarifLog.groupResult (.ofGroup k.program base g)) ∧
    (k.program.diagnostics h threshold).filter (·.category = "group") =
      (h.groups.filter (·.status.ok)).filterMap k.program.groupDiagnostic? ∧
    (∀ g ∈ h.groups, k.program.groupDiagnostic? g = none ↔
      ∃ first others, g.vars = first :: others ∧ k.program.silent first.pos = true) ∧
    (∀ g ∈ h.groups, g.status.entries.isEmpty = true → g.status.ok = true) ∧
    (h.groups.filter (·.status.entries.isEmpty) = h.groups.filter (·.status.ok) ↔
      ∀ g ∈ h.groups, g.status.entries ≠ [] → ∃ e ∈ g.status.entries, .info < e.severity) ∧
    (.info < k.settings.severities.of .ineligible → .info < k.settings.severities.of .foreignPackage →
      h.groups.filter (·.status.entries.isEmpty) = h.groups.filter (·.status.ok)) ∧
    ∀ g ∈ h.groups, g.status.ok = false → ∃ e ∈ g.status.entries, .info < e.severity ∧
      Report.Entry.ofFinding k.program base e ∈ (Report.ofHarvest k.program h base).status := by
  have hempty : ∀ g : Group, g.status.entries.isEmpty = true → g.status.ok = true := by
    intro g hg
    rw [Status.ok_iff, List.isEmpty_iff.1 hg]
    simp
  have hsame : h.groups.filter (·.status.entries.isEmpty) = h.groups.filter (·.status.ok) ↔
      ∀ g ∈ h.groups, g.status.entries ≠ [] → ∃ e ∈ g.status.entries, .info < e.severity := by
    rw [filter_eq_filter_iff]
    refine forall₂_congr fun g _ => ?_
    rw [← Status.ok_eq_false_iff, ne_eq, ← List.isEmpty_iff, ← Bool.not_eq_true, not_imp_not]
    exact ⟨fun hiff => hiff.2, fun himp => ⟨hempty g, himp⟩⟩
  refine ⟨SarifLog.filter_ofHarvest .., Program.filter_diagnostics .., fun g hg => ?_, fun g _ => hempty g, hsame,
    ?_, ?_⟩
  · obtain ⟨served, last, hc⟩ := completes_of_mem_groups hh hg
    obtain ⟨first, others, hvars⟩ := List.exists_cons_of_ne_nil (hc.vars_ne_nil hg)
    rw [Program.groupDiagnostic?_eq_none_iff]
    simp [hvars]
  · intro hineligible hforeign
    rw [hsame]
    intro g hg hfindings
    obtain ⟨e, he⟩ := List.exists_mem_of_ne_nil _ hfindings
    refine ⟨e, he, ?_⟩
    rcases severity_of_mem_group hh hg he with hs | hs
    · exact hs ▸ hineligible
    · exact hs ▸ hforeign
  · intro g hg hok
    obtain ⟨e, he, hinfo⟩ := Status.ok_eq_false_iff.1 hok
    exact ⟨e, he, hinfo, List.mem_map_of_mem (mem_status_of_mem_group hh hg he)⟩

end Classifier

/-! ## A variable without a value -/

namespace Uninitialized

/-- The syntax of `var A *int`. -/
def source : Node :=
  .mk ⟨none, .file, ⟨1, 22⟩, {}⟩ [
    .mk ⟨some .name, .ident, ⟨9, 10⟩, { name := "p" }⟩ [],
    .mk ⟨some .decls, .genDecl, ⟨12, 22⟩, {}⟩ [
      .mk ⟨some .specs, .valueSpec, ⟨16, 22⟩, {}⟩ [
        .mk ⟨some .names, .ident, ⟨16, 17⟩, { name := "A", declares := some 0, type := some 0 }⟩ [],
        .pointerType .typeExpr 18 0 1 1]]]

def typing : Typing where
  types := #[⟨.pointer 1, none⟩, ⟨.basic "int", none⟩]
  objects := #[⟨"A", 16, some ⟨0, "p"⟩, .var 0 .var none (some "A")⟩, ⟨"int", 0, none, .typeName 1⟩]
  scope := [⟨0, "A", "", 0⟩]
  impls := []

def files : List SourceFile := [⟨"p", 0, 1, 22, [0, 10, 11], false, [], some source, []⟩]

def packages : List Package := [⟨⟨0, "p"⟩, files, false⟩]

/-- The program with some severity for elements that are not eligible. -/
def classifier (ineligible : Severity) : Classifier :=
  ⟨.ofPackages typing files packages false,
    { Settings.standard with severities := Severities.standard.set .ineligible ineligible }⟩

def root : Root := Program.wholeRoot (.ofPackages typing files packages false) packages

def varA : Variable := ⟨0, "A", 16, some ⟨0, "p"⟩, .var, some "A"⟩

/-- There is one group, with one finding, since the variable is nil only for want of a value. -/
theorem exists_group {s : Severity} (hs : s = .info ∨ s = .error) : ∃ h g e, (classifier s).harvest root none = .ok h ∧
    h.groups = [g] ∧ g.status.entries = [e] ∧ e.severity = s ∧ g.vars = [varA] := by
  have hevaluate : ((classifier s).evaluate root 2).map (fun out => ((classifier s).finish out.2 root).groups.map
      fun g => (g.status.entries.map (·.severity), g.vars)) = some [([s], [varA])] := by
    rcases hs with rfl | rfl
    · decide +kernel
    · decide +kernel
  obtain ⟨⟨served, last⟩, he, hout⟩ := Option.map_eq_some_iff.1 hevaluate
  obtain ⟨hh, -⟩ := Classifier.harvest_complete_iff.2 ⟨served, last, Classifier.completes_of_evaluate he⟩
  obtain ⟨g, hg, hview⟩ := List.map_eq_singleton_iff.1 hout
  obtain ⟨hfindings, hvars⟩ := Prod.mk.inj hview
  obtain ⟨e, he, hseverity⟩ := List.map_eq_singleton_iff.1 hfindings
  exact ⟨_, g, e, hh, hg, he, hseverity, hvars⟩

/-- Graded as an error, the finding keeps the group out of both reports, and is reported for the whole run. -/
theorem error_reported : ∃ h g e, (classifier .error).harvest root none = .ok h ∧ h.groups = [g] ∧
    h.groups.filter (·.status.entries.isEmpty) = h.groups.filter (·.status.ok) ∧ e ∈ g.status.entries ∧
    Report.Entry.ofFinding (classifier .error).program "" e ∈
      (Report.ofHarvest (classifier .error).program h "").status := by
  obtain ⟨h, g, e, hh, hgroups, hentries, hseverity, -⟩ := exists_group (s := .error) (Or.inr rfl)
  obtain ⟨-, -, -, -, -, hsame, hfinding⟩ := (classifier .error).convertible_groups hh "" .warning
  have hok : g.status.ok = false := Status.ok_eq_false_iff.2 ⟨e, by simp [hentries], hseverity ▸ by decide⟩
  obtain ⟨e', he', -, hreported⟩ := hfinding g (by simp [hgroups]) hok
  exact ⟨h, g, e', hh, hgroups, hsame (by decide) (by decide), he', hreported⟩

/-- Graded as informational, it leaves the group out of the log, but not out of the messages. -/
theorem informational_disagree : ∃ h g, (classifier .info).harvest root none = .ok h ∧ h.groups = [g] ∧
    ∀ threshold, (SarifLog.ofReport ((Report.ofHarvest (classifier .info).program h "").above threshold)).results.filter
        (·.rule = SarifRule.groupId) = [] ∧
      ∃ d, (classifier .info).program.groupDiagnostic? g = some d ∧
        d ∈ (classifier .info).program.diagnostics h threshold := by
  obtain ⟨h, g, e, hh, hgroups, hentries, hseverity, hvars⟩ := exists_group (s := .info) (Or.inl rfl)
  have hok : g.status.ok = true := by
    rw [Status.ok_iff, hentries, List.forall_mem_singleton, hseverity]
    exact Severity.le_refl _
  have hheard : (classifier .info).program.silent varA.pos = false := by decide +kernel
  refine ⟨h, g, hh, hgroups, fun threshold => ⟨?_, ?_⟩⟩
  · rw [SarifLog.filter_ofHarvest, hgroups]
    simp [hentries]
  · cases hd : (classifier .info).program.groupDiagnostic? g with
    | none =>
      rw [Program.groupDiagnostic?_eq_none_iff, hvars] at hd
      rw [hd varA rfl] at hheard
      cases hheard
    | some d =>
      refine ⟨d, rfl, List.mem_append_left _ ?_⟩
      exact List.mem_filterMap.2 ⟨g, List.mem_filter.2 ⟨by simp [hgroups], hok⟩, hd⟩

end Uninitialized

end NilFlow
