import Mathlib.Data.List.Pairwise
import NilFlow.Analyzer.Plugin
import NilFlow.Proofs.Settings.File
import NilFlow.Proofs.Settings.Order

/-!
# Plugin settings and settings files

* `PluginSettings.toFile`: the settings file with the same values.
* `PluginSettings.apply_toFile`: what such a file does before its severities is what the plain options do.
* `PluginSettings.severityChoices_of_known`, `PluginSettings.severityChoices_of_unknown`: when severities become
  options.
* `PluginSettings.choices_agree_toFile`: the options that settings stand for, and the file with the same values, fail
  together and lead to one configuration.
-/

namespace NilFlow

/-! ## Options one after the other -/

namespace Choice

theorem applyAll_append : ∀ (xs ys : List Choice) (c : Configuration),
    applyAll c (xs ++ ys) = applyAll (applyAll c xs) ys
  | [], _, _ => rfl
  | x :: xs, ys, c => applyAll_append xs ys (apply c x)

theorem applyAll_category (k : Category) (on : Option Bool) (c : Configuration) :
    applyAll c (on.map (category k)).toList =
      { c with settings := on.elim c.settings (c.settings.setCategory k) } := by
  cases on <;> rfl

theorem applyAll_behavior (b : Behavior) (on : Option Bool) (c : Configuration) :
    applyAll c (on.map (behavior b)).toList =
      { c with settings := on.elim c.settings (c.settings.setBehavior b) } := by
  cases on <;> rfl

theorem applyAll_severity : ∀ (entries : List (String × Severity)) (c : Configuration),
    applyAll c (entries.map fun p => severity p.1 p.2) =
      c.graded (entries.filterMap fun p => (FailureKind.ofName? p.1).map (·, p.2))
  | [], _ => rfl
  | p :: entries, c => by
    rw [List.map_cons, applyAll_cons, applyAll_severity entries, apply]
    cases hk : FailureKind.ofName? p.1 with
    | none => rw [List.filterMap_cons_none (by rw [hk]; rfl)]
    | some k =>
      rw [List.filterMap_cons_some (by rw [hk]; rfl)]
      rfl

end Choice

theorem EligibleSwitches.apply_setBehavior (e : EligibleSwitches) (s : Settings) (b : Behavior) (on : Bool) :
    e.apply (s.setBehavior b on) = (e.apply s).setBehavior b on := by
  unfold apply
  refine List.foldl_hom (Settings.setBehavior · b on) fun s p => ?_
  obtain ⟨k, on⟩ := p
  cases on <;> rfl

namespace PluginSettings

/-! ## The file with the same values -/

/-- The settings file with the same values. -/
def toFile (s : PluginSettings) : SettingsFile where
  eligible := ⟨s.fields, s.vars, s.parameters, s.results, s.implicitFields⟩
  behavior := ⟨none, none, s.errors⟩
  overrides := s.overrides.elim "" OverridePolicy.name
  threshold := s.threshold.elim "" Severity.name
  severities := s.severities.map fun p => (p.1, p.2.name)

variable {s : PluginSettings}

/-- The switches of a file with the same values are those of the plain options. -/
theorem applyAll_switches (s : PluginSettings) (c : Configuration) :
    Choice.applyAll c ((s.errors.map (.behavior .errors)).toList ++ (s.fields.map (.category .fields)).toList ++
      (s.vars.map (.category .vars)).toList ++ (s.parameters.map (.category .parameters)).toList ++
      (s.results.map (.category .results)).toList ++ (s.implicitFields.map (.category .implicitFields)).toList) =
      { c with settings := s.toFile.behavior.apply (s.toFile.eligible.apply c.settings) } := by
  simp only [Choice.applyAll_append, Choice.applyAll_category, Choice.applyAll_behavior]
  cases he : s.errors with
  | none =>
    unfold toFile
    rw [he]
    rfl
  | some on =>
    have hcomm := s.toFile.eligible.apply_setBehavior c.settings .errors on
    unfold toFile at hcomm ⊢
    rw [he]
    exact congrArg (fun t => { c with settings := t }) hcomm

/-- What a file with the same values does before its severities is what the plain options do. -/
theorem apply_toFile (h : ∀ t ∈ s.threshold, t.Declared) (order : List (String × String)) (c : Configuration) :
    { s.toFile with severities := order }.apply c =
      SettingsFile.applySeverities order (Choice.applyAll c s.plainChoices) := by
  unfold plainChoices SettingsFile.apply
  rw [Choice.applyAll_append, Choice.applyAll_append, applyAll_switches]
  generalize ({ c with settings := s.toFile.behavior.apply (s.toFile.eligible.apply c.settings) } :
    Configuration) = switched
  have hthreshold : ∀ c : Configuration, { s.toFile with severities := order }.applyThreshold c =
      SettingsFile.applySeverities order (Choice.applyAll c (s.threshold.map .threshold).toList) := by
    intro c
    unfold SettingsFile.applyThreshold toFile
    cases ht : s.threshold with
    | none => rfl
    | some t =>
      have hdeclared := h t ht
      simp [Severity.isEmpty_name hdeclared, Severity.ofWord_name hdeclared]
  unfold SettingsFile.applyOverrides
  simp only [hthreshold]
  unfold toFile
  cases s.overrides with
  | none => rfl
  | some p => simp [OverridePolicy.isEmpty_name, OverridePolicy.ofWord_name]

/-! ## Severities -/

/-- The choice that a severity stands for, if its name is known. -/
def gradeOf? (p : String × Severity) : Option (FailureKind × Severity) := (FailureKind.ofName? p.1).map (·, p.2)

theorem grade?_name {p : String × Severity} (h : p.2.Declared) : SettingsFile.grade? (p.1, p.2.name) = gradeOf? p := by
  unfold SettingsFile.grade? gradeOf?
  rw [Severity.ofWord_name h]
  cases FailureKind.ofName? p.1 <;> rfl

theorem severityChoices_of_known : ∀ {entries : List (String × Severity)},
    (∀ p ∈ entries, FailureKind.ofName? p.1 ≠ none) →
      severityChoices entries = .ok (entries.map fun p => .severity p.1 p.2)
  | [], _ => rfl
  | p :: entries, h => by
    obtain ⟨k, hk⟩ := Option.ne_none_iff_exists'.1 (h p List.mem_cons_self)
    rw [severityChoices, hk]
    simp only
    rw [severityChoices_of_known fun q hq => h q (List.mem_cons_of_mem p hq)]
    rfl

theorem severityChoices_of_unknown : ∀ {entries : List (String × Severity)},
    (∃ p ∈ entries, FailureKind.ofName? p.1 = none) → ∃ w, severityChoices entries = .error (.unknownKind w)
  | [], h => absurd h (by simp)
  | p :: entries, h => by
    rw [severityChoices]
    cases hk : FailureKind.ofName? p.1 with
    | none => exact ⟨p.1, rfl⟩
    | some k =>
      obtain ⟨w, hw⟩ := severityChoices_of_unknown ((List.exists_mem_cons_iff ..).1 h |>.resolve_left (by simp [hk]))
      exact ⟨w, by rw [hw]; rfl⟩

/-- Two severities do not name one failure kind. -/
def Apart (p q : String × Severity) : Prop := ∀ k ∈ FailureKind.ofName? p.1, k ∉ FailureKind.ofName? q.1

instance (p q : String × Severity) : Decidable (Apart p q) :=
  inferInstanceAs (Decidable (∀ k ∈ FailureKind.ofName? p.1, k ∉ FailureKind.ofName? q.1))

instance : Std.Symm Apart := ⟨fun _ _ h k hq hp => h k hp hq⟩

theorem unanimous_of_apart {entries : List (String × Severity)} (h : entries.Pairwise Apart) :
    Severities.Unanimous (entries.filterMap gradeOf?) := by
  intro g hg g' hg' hk
  obtain ⟨p, hp, hg⟩ := List.mem_filterMap.1 hg
  obtain ⟨q, hq, hg'⟩ := List.mem_filterMap.1 hg'
  obtain ⟨k, hpk, rfl⟩ := Option.map_eq_some_iff.1 hg
  obtain ⟨k', hqk, rfl⟩ := Option.map_eq_some_iff.1 hg'
  obtain rfl : k = k' := hk
  by_contra hne
  have hpq : p ≠ q := by
    rintro rfl
    exact hne rfl
  exact h.forall hp hq hpq k hpk hqk

def sorted (s : PluginSettings) : List (String × Severity) := s.severities.mergeSort fun a b => decide (a.1 ≤ b.1)

theorem sorted_perm (s : PluginSettings) : s.sorted.Perm s.severities := List.mergeSort_perm ..

theorem choices_cases (s : PluginSettings) :
    ((∀ p ∈ s.severities, FailureKind.ofName? p.1 ≠ none) ∧
      s.choices = .ok (s.plainChoices ++ s.sorted.map fun p => .severity p.1 p.2)) ∨
    ((∃ p ∈ s.severities, FailureKind.ofName? p.1 = none) ∧ ∃ w, s.choices = .error (.unknownKind w)) := by
  by_cases h : ∀ p ∈ s.severities, FailureKind.ofName? p.1 ≠ none
  · have hsorted := severityChoices_of_known fun p hp => h p (s.sorted_perm.subset hp)
    refine Or.inl ⟨h, ?_⟩
    unfold choices
    rw [show s.severities.mergeSort _ = s.sorted from rfl, hsorted]
    rfl
  · obtain ⟨p, hp, hnone⟩ : ∃ p ∈ s.severities, FailureKind.ofName? p.1 = none := by simpa using h
    obtain ⟨w, hw⟩ := severityChoices_of_unknown ⟨p, s.sorted_perm.symm.subset hp, hnone⟩
    refine Or.inr ⟨⟨p, hp, hnone⟩, w, ?_⟩
    unfold choices
    rw [show s.severities.mergeSort _ = s.sorted from rfl, hw]
    rfl

theorem grade?_entries (h : ∀ p ∈ s.severities, p.2.Declared) :
    s.toFile.severities.filterMap SettingsFile.grade? = s.severities.filterMap gradeOf? := by
  unfold toFile
  rw [List.filterMap_map]
  exact List.filterMap_congr fun p hp => grade?_name (h p hp)

theorem exists_grade?_eq_none_iff (h : ∀ p ∈ s.severities, p.2.Declared) {order : List (String × String)}
    (ho : order.Perm s.toFile.severities) :
    (∃ e ∈ order, SettingsFile.grade? e = none) ↔ ∃ p ∈ s.severities, FailureKind.ofName? p.1 = none := by
  have hname : ∀ p ∈ s.severities, SettingsFile.grade? (p.1, p.2.name) = none ↔ FailureKind.ofName? p.1 = none := by
    intro p hp
    rw [grade?_name (h p hp)]
    exact Option.map_eq_none_iff
  constructor
  · rintro ⟨e, he, hnone⟩
    obtain ⟨p, hp, rfl⟩ := List.mem_map.1 (ho.subset he)
    exact ⟨p, hp, (hname p hp).1 hnone⟩
  · rintro ⟨p, hp, hnone⟩
    exact ⟨(p.1, p.2.name), ho.symm.subset (List.mem_map_of_mem hp), (hname p hp).2 hnone⟩

/-- Severities that are all known make the same choices as options and as entries of a file, in whatever order. -/
theorem applySeverities_toFile (h : ∀ p ∈ s.severities, p.2.Declared) (hapart : s.severities.Pairwise Apart)
    (hknown : ∀ p ∈ s.severities, FailureKind.ofName? p.1 ≠ none) {order : List (String × String)}
    (ho : order.Perm s.toFile.severities) (c : Configuration) :
    SettingsFile.applySeverities order c = ⟨Choice.applyAll c (s.sorted.map fun p => .severity p.1 p.2), none⟩ := by
  have hread : ¬ ∃ e ∈ order, SettingsFile.grade? e = none := by
    rw [exists_grade?_eq_none_iff h ho]
    rintro ⟨p, hp, hnone⟩
    exact hknown p hp hnone
  have hconfiguration : (SettingsFile.applySeverities order c).configuration =
      Choice.applyAll c (s.sorted.map fun p => .severity p.1 p.2) := by
    have hfile := grade?_entries h
    have hunanimous := unanimous_of_apart hapart
    rw [SettingsFile.configuration_of_read fun e he hnone => hread ⟨e, he, hnone⟩, Choice.applyAll_severity]
    unfold Configuration.graded
    rw [(hfile ▸ hunanimous : Severities.Unanimous _).setAll_perm (ho.filterMap _), hfile,
      ← hunanimous.setAll_perm (s.sorted_perm.filterMap gradeOf?)]
    rfl
  have herror : (SettingsFile.applySeverities order c).error = none := by
    rw [← Option.not_isSome_iff_eq_none, SettingsFile.isSome_error_applySeverities]
    exact hread
  cases happlied : SettingsFile.applySeverities order c with
  | mk configuration error =>
    rw [happlied] at hconfiguration herror
    rw [show configuration = _ from hconfiguration, show error = none from herror]

/-- Plugin settings with declared levels, in which no two severities name one kind, stand for options exactly when a
file with the same values can be applied, whatever the order of its severities. The options then lead to the
configuration that the file leads to, and those of the analyzer inside a linter only have generated files checked
besides. -/
theorem choices_agree_toFile (s : PluginSettings) (hthreshold : ∀ t ∈ s.threshold, t.Declared)
    (hseverities : ∀ p ∈ s.severities, p.2.Declared) (hapart : s.severities.Pairwise Apart)
    {order : List (String × String)} (ho : order.Perm s.toFile.severities) (base : Configuration) :
    ((∃ e, s.choices = .error e) ↔ ({ s.toFile with severities := order }.apply base).error.isSome = true) ∧
      ∀ cs, s.choices = .ok cs →
        { s.toFile with severities := order }.apply base = ⟨Choice.applyAll base cs, none⟩ ∧
        ∀ v, ofJson v = .ok s → ∃ ds, analyzerChoices v = .ok ds ∧
          Choice.applyAll base ds = { Choice.applyAll base cs with
            settings := (Choice.applyAll base cs).settings.setBehavior .generated true } := by
  rw [apply_toFile hthreshold]
  rcases s.choices_cases with ⟨hknown, hchoices⟩ | ⟨hunknown, w, hchoices⟩
  · rw [applySeverities_toFile hseverities hapart hknown ho, hchoices]
    refine ⟨by simp, ?_⟩
    rintro cs ⟨⟩
    refine ⟨by rw [Choice.applyAll_append], fun v hv => ?_⟩
    refine ⟨_, by rw [analyzerChoices, hv]; simp only [hchoices]; rfl, ?_⟩
    rw [Choice.applyAll_append _ [_]]
    rfl
  · rw [SettingsFile.isSome_error_applySeverities, exists_grade?_eq_none_iff hseverities ho, hchoices]
    exact ⟨iff_of_true ⟨_, rfl⟩ hunknown, fun cs h => by cases h⟩

/-- Settings of every sort, as a linter hands them over. -/
def strictJson : JsonValue := .obj [("errors", .bool true), ("Variables", .bool false), ("implicit-fields", .bool true),
  ("overrides", .str "exact"), ("threshold", .str "ERROR"),
  ("severities", .obj [("disallowed", .str "error"), ("ctx", .str "info"), ("mdl", .str "none")])]

def strict : PluginSettings where
  errors := some true
  fields := none
  vars := some false
  parameters := none
  results := none
  implicitFields := some true
  overrides := some .exact
  threshold := some .error
  severities := [("disallowed", .error), ("ctx", .info), ("mdl", .ok)]

/-- Their options and the file with the same values lead to one configuration. -/
theorem strict_agrees : ∃ cs ds, strict.choices = .ok cs ∧ analyzerChoices strictJson = .ok ds ∧
    strict.toFile.apply .standard = ⟨Choice.applyAll .standard cs, none⟩ ∧
    (Choice.applyAll .standard ds).settings = (Choice.applyAll .standard cs).settings.setBehavior .generated true ∧
    (Choice.applyAll .standard ds).threshold = .error := by
  have hread : ofJson strictJson = .ok strict := by decide +kernel
  obtain ⟨hfails, hagree⟩ := choices_agree_toFile strict (by decide) (by decide) (by decide +kernel)
    (.refl strict.toFile.severities) .standard
  have hok : ¬ ∃ e, strict.choices = .error e := by
    rw [hfails]
    decide +kernel
  cases hcs : strict.choices with
  | error e => exact absurd ⟨e, hcs⟩ hok
  | ok cs =>
    obtain ⟨happly, hlinter⟩ := hagree cs hcs
    obtain ⟨ds, hds, hconfiguration⟩ := hlinter strictJson hread
    refine ⟨cs, ds, rfl, hds, happly, by rw [hconfiguration], ?_⟩
    rw [hconfiguration]
    have hthreshold : (strict.toFile.apply .standard).configuration.threshold = .error := by decide +kernel
    rwa [happly] at hthreshold

end PluginSettings

end NilFlow
