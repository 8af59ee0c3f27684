import Mathlib.Data.List.Perm.Basic
import Mathlib.Data.List.TakeWhile
import NilFlow.Settings.File

/-!
# The order of severities in a settings file

A file may name one failure kind twice, by its code and by its name, and may hold entries that cannot be read.

* `Severities.setAll`: severities after some choices; `Severities.Unanimous`, `Severities.Idle`: choices that do not
  differ about one kind, and choices that change nothing.
* `SettingsFile.grade?`: the choice that an entry stands for, if it can be read.
* `SettingsFile.configuration_applySeverities`, `SettingsFile.isSome_error_applySeverities`: the result of applying
  entries, and when it fails.
* `SettingsFile.apply_reordered`: another order never decides whether a file can be applied, and when it makes no
  difference to the configuration reached.
-/

namespace NilFlow

/-! ## Several choices of severities -/

namespace Severities

variable {s : Severities} {grades grades' : List (FailureKind × Severity)}

/-- The severities after some choices, one after the other. -/
def setAll (s : Severities) (grades : List (FailureKind × Severity)) : Severities :=
  grades.foldl (fun s g => s.set g.1 g.2) s

/-- No two choices differ about one kind. -/
def Unanimous (grades : List (FailureKind × Severity)) : Prop := ∀ g ∈ grades, ∀ h ∈ grades, g.1 = h.1 → g.2 = h.2

/-- Every choice is already made. -/
def Idle (s : Severities) (grades : List (FailureKind × Severity)) : Prop := ∀ g ∈ grades, s.chosen g.1 = g.2

theorem set_eq_self {k : FailureKind} {v : Severity} (h : s.chosen k = v) : s.set k v = s := by
  unfold set
  congr 1
  funext j
  split
  · rename_i hj
    rw [hj, h]
  · rfl

theorem set_set_comm {g h : FailureKind × Severity} (hgh : g.1 = h.1 → g.2 = h.2) (s : Severities) :
    (s.set g.1 g.2).set h.1 h.2 = (s.set h.1 h.2).set g.1 g.2 := by
  unfold set
  congr 1
  funext j
  by_cases hg : j = g.1 <;> by_cases hh : j = h.1 <;> grind

/-- The last choice for a kind counts. -/
theorem chosen_setAll_snoc (s : Severities) (grades : List (FailureKind × Severity)) (g : FailureKind × Severity) :
    (s.setAll (grades ++ [g])).chosen g.1 = g.2 := by
  unfold setAll
  rw [List.foldl_append]
  exact if_pos rfl

theorem Idle.setAll_eq : ∀ {grades : List (FailureKind × Severity)}, s.Idle grades → s.setAll grades = s
  | [], _ => rfl
  | g :: grades, h => by
    unfold setAll
    rw [List.foldl_cons, set_eq_self (h g List.mem_cons_self)]
    exact Idle.setAll_eq fun x hx => h x (List.mem_cons_of_mem g hx)

theorem Unanimous.setAll_perm (h : Unanimous grades) (hp : grades'.Perm grades) (s : Severities) :
    s.setAll grades' = s.setAll grades :=
  hp.foldl_eq' (fun x hx y hy z => set_set_comm (h x (hp.subset hx) y (hp.subset hy)) z) s

end Severities

def Configuration.graded (c : Configuration) (grades : List (FailureKind × Severity)) : Configuration :=
  { c with settings := { c.settings with severities := c.settings.severities.setAll grades } }

namespace SettingsFile

/-! ## Reading entries -/

/-- The kind and the severity that an entry gives, when both of its words are known. -/
def grade? (entry : String × String) : Option (FailureKind × Severity) :=
  (FailureKind.ofName? entry.1).bind fun kind => (Severity.ofWord entry.2).toOption.map (kind, ·)

theorem applySeverities_of_grade?_eq_none {entry : String × String} (h : grade? entry = none)
    (rest : List (String × String)) (c : Configuration) : ∃ e, applySeverities (entry :: rest) c = ⟨c, some e⟩ := by
  unfold grade? at h
  unfold applySeverities
  cases hk : FailureKind.ofName? entry.1 with
  | none => exact ⟨_, rfl⟩
  | some kind =>
    cases hs : Severity.ofWord entry.2 with
    | error e => exact ⟨_, rfl⟩
    | ok severity => simp [hk, hs, Except.toOption] at h

theorem applySeverities_of_grade?_eq_some {entry : String × String} {g : FailureKind × Severity}
    (h : grade? entry = some g) (rest : List (String × String)) (c : Configuration) :
    applySeverities (entry :: rest) c = applySeverities rest (c.graded [g]) := by
  unfold grade? at h
  obtain ⟨kind, hk, h⟩ := Option.bind_eq_some_iff.1 h
  obtain ⟨severity, hs, rfl⟩ := Option.map_eq_some_iff.1 h
  cases ho : Severity.ofWord entry.2 with
  | error e => simp [ho, Except.toOption] at hs
  | ok s =>
    simp only [ho, Except.toOption, Option.some.injEq] at hs
    subst hs
    conv_lhs => unfold applySeverities
    simp only [hk, ho]
    rfl

/-! ## Applying entries -/

/-- What applying entries reaches: the choices up to the first entry that cannot be read are made. -/
theorem configuration_applySeverities : ∀ (entries : List (String × String)) (c : Configuration),
    (applySeverities entries c).configuration =
      c.graded ((entries.takeWhile fun e => (grade? e).isSome).filterMap grade?)
  | [], _ => rfl
  | entry :: rest, c => by
    cases hg : grade? entry with
    | none =>
      obtain ⟨e, he⟩ := applySeverities_of_grade?_eq_none hg rest c
      rw [he, List.takeWhile_cons_of_neg (by simp [hg])]
      rfl
    | some g =>
      rw [applySeverities_of_grade?_eq_some hg, configuration_applySeverities rest,
        List.takeWhile_cons_of_pos (by simp [hg]), List.filterMap_cons_some hg]
      rfl

theorem isSome_error_applySeverities : ∀ (entries : List (String × String)) (c : Configuration),
    (applySeverities entries c).error.isSome = true ↔ ∃ e ∈ entries, grade? e = none
  | [], _ => by simp [applySeverities]
  | entry :: rest, c => by
    rw [List.exists_mem_cons_iff]
    cases hg : grade? entry with
    | none =>
      obtain ⟨e, he⟩ := applySeverities_of_grade?_eq_none hg rest c
      rw [he]
      exact iff_of_true rfl (Or.inl rfl)
    | some g =>
      rw [applySeverities_of_grade?_eq_some hg, isSome_error_applySeverities rest]
      exact (or_iff_right (by simp)).symm

theorem configuration_of_read {entries : List (String × String)} (h : ∀ e ∈ entries, grade? e ≠ none)
    (c : Configuration) : (applySeverities entries c).configuration = c.graded (entries.filterMap grade?) := by
  rw [configuration_applySeverities,
    List.takeWhile_eq_self_iff.2 fun e he => Option.isSome_iff_ne_none.2 (h e he)]

theorem isSome_error_perm {entries order : List (String × String)} (h : order.Perm entries) (c : Configuration) :
    (applySeverities order c).error.isSome = (applySeverities entries c).error.isSome := by
  rw [Bool.eq_iff_iff, isSome_error_applySeverities, isSome_error_applySeverities]
  simp only [h.mem_iff]

/-! ## Another order of entries -/

variable {entries : List (String × String)} {c : Configuration}

/-- Where all entries are read, the order makes no difference exactly when they are unanimous. -/
theorem reordered_iff_of_read (h : ∀ e ∈ entries, grade? e ≠ none) (c : Configuration) :
    (∀ order, order.Perm entries →
        (applySeverities order c).configuration = (applySeverities entries c).configuration) ↔
      Severities.Unanimous (entries.filterMap grade?) := by
  have hread : ∀ order, order.Perm entries →
      (applySeverities order c).configuration = c.graded (order.filterMap grade?) :=
    fun order hp => configuration_of_read (fun e he => h e (hp.subset he)) c
  constructor
  · intro hall
    -- any entry may come last, and then its choice counts
    have hlast : ∀ g ∈ entries.filterMap grade?,
        (applySeverities entries c).configuration.settings.severities.chosen g.1 = g.2 := by
      intro g hg
      obtain ⟨e, he, hg⟩ := List.mem_filterMap.1 hg
      have hp : (entries.erase e ++ [e]).Perm entries :=
        (List.perm_append_singleton e _).trans (List.perm_cons_erase he).symm
      rw [← hall _ hp, hread _ hp, List.filterMap_append, List.filterMap_cons_some hg, List.filterMap_nil]
      exact Severities.chosen_setAll_snoc _ _ g
    intro g hg g' hg' hk
    rw [← hlast g hg, ← hlast g' hg', hk]
  · intro hu order hp
    rw [hread order hp, hread entries (.refl _)]
    unfold Configuration.graded
    rw [hu.setAll_perm (hp.filterMap grade?)]

/-- Where an entry cannot be read, the order makes no difference exactly when no other entry changes anything. -/
theorem reordered_iff_of_unread {bad : String × String} (hbad : bad ∈ entries) (hnone : grade? bad = none)
    (c : Configuration) :
    (∀ order, order.Perm entries →
        (applySeverities order c).configuration = (applySeverities entries c).configuration) ↔
      c.settings.severities.Idle (entries.filterMap grade?) := by
  constructor
  · intro hall g hg
    obtain ⟨e, he, hg⟩ := List.mem_filterMap.1 hg
    have hne : e ≠ bad := fun hb => by simp [hb, hnone] at hg
    have hp := List.perm_cons_erase hbad
    have hp' := List.perm_cons_erase ((List.mem_erase_of_ne hne).2 he)
    -- once the bad entry comes first, and once this entry comes before it
    have hfirst := hall _ hp.symm
    have hsecond := hall _ ((List.Perm.swap bad e _).trans ((hp'.cons bad).symm.trans hp.symm))
    obtain ⟨err, herr⟩ := applySeverities_of_grade?_eq_none hnone (entries.erase bad) c
    obtain ⟨err', herr'⟩ := applySeverities_of_grade?_eq_none hnone ((entries.erase bad).erase e) (c.graded [g])
    rw [herr] at hfirst
    rw [applySeverities_of_grade?_eq_some hg, herr', ← hfirst] at hsecond
    have hchosen := congrArg (fun x : Configuration => x.settings.severities.chosen g.1) hsecond
    exact hchosen.symm.trans (if_pos rfl)
  · intro hidle order hp
    have hstay : ∀ order, order.Perm entries → (applySeverities order c).configuration = c := by
      intro order hp
      have hsub : c.settings.severities.Idle ((order.takeWhile fun e => (grade? e).isSome).filterMap grade?) := by
        intro g hg
        obtain ⟨e, he, hg⟩ := List.mem_filterMap.1 hg
        exact hidle g (List.mem_filterMap.2 ⟨e, hp.subset ((List.takeWhile_sublist _).subset he), hg⟩)
      rw [configuration_applySeverities]
      unfold Configuration.graded
      rw [hsub.setAll_eq]
    rw [hstay order hp, hstay entries (.refl _)]

end SettingsFile

/-! ## Another order of the severities of a file -/

theorem EligibleSwitches.severities_apply (e : EligibleSwitches) (s : Settings) :
    (e.apply s).severities = s.severities := by
  unfold apply
  refine List.foldlRecOn (motive := fun t : Settings => t.severities = s.severities) e.pairs _ rfl fun t ht p _ => ?_
  obtain ⟨k, on⟩ := p
  cases on <;> exact ht

theorem BehaviorSwitches.severities_apply (b : BehaviorSwitches) (s : Settings) :
    (b.apply s).severities = s.severities := by
  unfold apply
  refine List.foldlRecOn (motive := fun t : Settings => t.severities = s.severities) b.pairs _ rfl fun t ht p _ => ?_
  obtain ⟨k, on⟩ := p
  cases on <;> exact ht

namespace SettingsFile

/-- The severities come last, when nothing before them stopped the file. -/
theorem apply_eq (f : SettingsFile) (c : Configuration) (order : List (String × String)) :
    apply { f with severities := order } c =
      match apply { f with severities := [] } c with
      | ⟨c', none⟩ => applySeverities order c'
      | stopped => stopped := by
  simp only [apply, applyOverrides, applyThreshold]
  cases f.overrides.isEmpty <;> cases OverridePolicy.ofWord f.overrides <;> cases f.threshold.isEmpty <;>
    cases Severity.ofWord f.threshold <;> rfl

theorem severities_apply_nil (f : SettingsFile) (c : Configuration) :
    (apply { f with severities := [] } c).configuration.settings.severities = c.settings.severities := by
  have hswitches : (f.behavior.apply (f.eligible.apply c.settings)).severities = c.settings.severities := by
    rw [BehaviorSwitches.severities_apply, EligibleSwitches.severities_apply]
  simp only [apply, applyOverrides, applyThreshold]
  cases f.overrides.isEmpty <;> cases OverridePolicy.ofWord f.overrides <;> cases f.threshold.isEmpty <;>
    cases Severity.ofWord f.threshold <;> exact hswitches

/-- Whether a file can be applied does not depend on the order of its severities. The configuration reached does not
either in three cases: the policy or the threshold already stops the file; all entries are read, and no two of them
differ about one kind; or some entry cannot be read, and the others ask for nothing new. In any other case it does. -/
theorem apply_reordered (f : SettingsFile) (c : Configuration) :
    (∀ order, order.Perm f.severities →
        (apply { f with severities := order } c).error.isSome = (f.apply c).error.isSome) ∧
      ((∀ order, order.Perm f.severities →
          (apply { f with severities := order } c).configuration = (f.apply c).configuration) ↔
        (apply { f with severities := [] } c).error.isSome = true ∨
          (∀ e ∈ f.severities, grade? e ≠ none) ∧ Severities.Unanimous (f.severities.filterMap grade?) ∨
          (∃ e ∈ f.severities, grade? e = none) ∧ c.settings.severities.Idle (f.severities.filterMap grade?)) := by
  have hself : f.apply c = apply { f with severities := f.severities } c := rfl
  have hstart := f.severities_apply_nil c
  rw [hself]
  cases hc : apply { f with severities := [] } c with
  | mk base error =>
    rw [hc] at hstart
    cases error with
    | some e =>
      have hstop : ∀ order, apply { f with severities := order } c = ⟨base, some e⟩ := fun order => by
        rw [f.apply_eq c order, hc]
      exact ⟨fun order _ => by rw [hstop, hstop], iff_of_true (fun order _ => by rw [hstop, hstop]) (Or.inl rfl)⟩
    | none =>
      have hgo : ∀ order, apply { f with severities := order } c = applySeverities order base := fun order => by
        rw [f.apply_eq c order, hc]
      simp only [hgo]
      refine ⟨fun order hp => isSome_error_perm hp base, ?_⟩
      by_cases hread : ∀ e ∈ f.severities, grade? e ≠ none
      · rw [reordered_iff_of_read hread]
        refine ⟨fun hu => Or.inr (Or.inl ⟨hread, hu⟩), ?_⟩
        rintro (h | ⟨-, hu⟩ | ⟨⟨e, he, hnone⟩, -⟩)
        · cases h
        · exact hu
        · exact absurd hnone (hread e he)
      · obtain ⟨bad, hbad, hnone⟩ : ∃ e ∈ f.severities, grade? e = none := by simpa using hread
        rw [reordered_iff_of_unread hbad hnone, show base.settings.severities = c.settings.severities from hstart]
        refine ⟨fun hidle => Or.inr (Or.inr ⟨⟨bad, hbad, hnone⟩, hidle⟩), ?_⟩
        rintro (h | ⟨hall, -⟩ | ⟨-, hidle⟩)
        · cases h
        · exact absurd hnone (hall bad hbad)
        · exact hidle

/-- One failure kind, given by its code and by its name. -/
def doubled : SettingsFile := { empty with severities := [("cnv", "info"), ("disallowed", "error")] }

/-- A kind that is given twice has the severity that comes last. -/
theorem severities_order_matters : ¬ ∀ (f : SettingsFile) (c : Configuration), (f.severities.map (·.1)).Nodup →
    ∀ order, order.Perm f.severities →
      (apply { f with severities := order } c).configuration = (f.apply c).configuration ∧
        (apply { f with severities := order } c).error.isSome = (f.apply c).error.isSome := by
  intro h
  obtain ⟨hsame, -⟩ := h doubled .standard (by decide) [("disallowed", "error"), ("cnv", "info")] (.swap _ _ [])
  have hof := congrArg (fun c : Configuration => c.settings.severities.of .disallowed) hsame
  exact absurd hof (by decide +kernel)

end SettingsFile

end NilFlow
