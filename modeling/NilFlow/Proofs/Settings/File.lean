import Mathlib.Data.List.Perm.Basic
import NilFlow.Settings.File

/-!
# The file of a configuration restores it

* `FlagSet.overlay`: a set with some of its switches as another set has them; `FlagSet.set_enabled` copies one switch.
* `Severity.ofWord_name`, `OverridePolicy.ofWord_name`, `FailureKind.ofName?_name`: names are read back.
* `Severities.overlay`: severities with those of some kinds as others have them.
* `SettingsFile.apply_complete`: what applying the file of a configuration does to any other one.
* `SettingsFile.apply_ofConfiguration`: the result has the switches, policy, severities and threshold of the
  configuration, and applying the file again changes nothing.
-/

namespace NilFlow

/-! ## Switches -/

namespace FlagSet

variable {s t : FlagSet} {mask other : UInt8}

/-- The set with the switches of a mask as another set has them. -/
def overlay (s t : FlagSet) (mask : UInt8) : FlagSet := ⟨(s.bits &&& ~~~mask) ||| (t.bits &&& mask)⟩

theorem and_eq_zero_or_self (hmask : mask ∈ switches) (bits : UInt8) : bits &&& mask = 0 ∨ bits &&& mask = mask := by
  obtain ⟨i, hi⟩ : ∃ i : Fin 8, mask.toBitVec = BitVec.twoPow 8 i := by
    revert mask
    decide +kernel
  rw [← UInt8.toBitVec_inj, ← UInt8.toBitVec_inj, UInt8.toBitVec_and, hi, BitVec.and_twoPow]
  split
  · exact Or.inr rfl
  · exact Or.inl rfl

theorem set_enabled (hmask : mask ∈ switches) (s t : FlagSet) : s.set mask (t.enabled mask) = s.overlay t mask := by
  have hne : mask ≠ 0 := by
    rintro rfl
    exact absurd hmask (by decide)
  unfold set enabled overlay enable disable
  rcases and_eq_zero_or_self hmask t.bits with h | h
  · simp [h]
  · rw [h, if_pos (bne_iff_ne.2 hne), FlagSet.mk.injEq, ← UInt8.toBitVec_inj]
    ext i
    simp
    grind

theorem overlay_overlay : (s.overlay t mask).overlay t other = s.overlay t (mask ||| other) := by
  unfold overlay
  rw [FlagSet.mk.injEq, ← UInt8.toBitVec_inj]
  ext i
  simp
  grind

theorem enabled_overlay (h : other &&& mask = other) : (s.overlay t mask).enabled other = t.enabled other := by
  have hbits : ((s.bits &&& ~~~mask) ||| (t.bits &&& mask)) &&& other = t.bits &&& other := by
    rw [← h, ← UInt8.toBitVec_inj]
    ext i
    simp
    grind
  unfold enabled
  exact congrArg (· != 0) hbits

end FlagSet

namespace Category

def flags : UInt8 := fields.flag ||| vars.flag ||| parameters.flag ||| results.flag ||| implicitFields.flag

theorem flag_mem (x : Category) : x.flag ∈ FlagSet.switches := by cases x <;> decide

theorem flag_and_flags (x : Category) : x.flag &&& flags = x.flag := by cases x <;> rfl

end Category

namespace Behavior

def flags : UInt8 := generated.flag ||| crossPackage.flag ||| errors.flag

theorem flag_mem (b : Behavior) : b.flag ∈ FlagSet.switches := by cases b <;> decide

theorem flag_and_flags (b : Behavior) : b.flag &&& flags = b.flag := by cases b <;> rfl

end Behavior

/-! ## Names are read back -/

theorem Severity.ofWord_name {s : Severity} (h : s.Declared) : ofWord s.name = .ok s := by
  have hrank : s.rank.toNat < 5 := Nat.lt_succ_of_le h
  have hall : ∀ n < 5, ofWord (name ⟨UInt8.ofNat n⟩) = .ok ⟨UInt8.ofNat n⟩ := by decide +kernel
  have hs := hall s.rank.toNat hrank
  rwa [UInt8.ofNat_toNat] at hs

theorem Severity.isEmpty_name {s : Severity} (h : s.Declared) : s.name.isEmpty = false := by
  have hrank : s.rank.toNat < 5 := Nat.lt_succ_of_le h
  have hall : ∀ n < 5, (name ⟨UInt8.ofNat n⟩).isEmpty = false := by decide
  have hs := hall s.rank.toNat hrank
  rwa [UInt8.ofNat_toNat] at hs

theorem OverridePolicy.ofWord_name (p : OverridePolicy) : ofWord p.name = .ok p := by cases p <;> decide +kernel

theorem OverridePolicy.isEmpty_name (p : OverridePolicy) : p.name.isEmpty = false := by cases p <;> rfl

theorem FailureKind.ofName?_name : ∀ k ∈ all, ofName? k.name = some k := by decide

/-! ## Severities -/

namespace Severities

variable {s t : Severities} {kinds : List FailureKind} {k : FailureKind}

/-- The severities with those of some kinds as others have them. -/
def overlay (s t : Severities) (kinds : List FailureKind) : Severities where
  chosen k := if k ∈ kinds then t.of k else s.chosen k

theorem overlay_set (s t : Severities) (k : FailureKind) (kinds : List FailureKind) :
    (s.set k (t.of k)).overlay t kinds = s.overlay t (k :: kinds) := by
  unfold overlay set
  rw [mk.injEq]
  funext j
  by_cases hk : j = k <;> by_cases hkinds : j ∈ kinds <;> simp [hk, hkinds]

theorem overlay_overlay (s t : Severities) (kinds : List FailureKind) :
    (s.overlay t kinds).overlay t kinds = s.overlay t kinds := by
  unfold overlay
  rw [mk.injEq]
  funext j
  by_cases hkinds : j ∈ kinds <;> simp [hkinds]

theorem overlay_congr {kinds' : List FailureKind} (h : kinds.Perm kinds') : s.overlay t kinds = s.overlay t kinds' := by
  unfold overlay
  simp only [h.mem_iff]

/-- Where only kinds are left out whose severity cannot be chosen, all severities are as the others are. -/
theorem of_overlay (s t : Severities) (k : FailureKind) :
    (s.overlay t SettingsFile.choosable).of k = t.of k := by
  cases k <;> rfl

end Severities

/-! ## Applying the file of a configuration -/

namespace SettingsFile

variable {c base : Configuration}

/-- The configuration that the file of `c` makes of another: switches beyond the declared ones, and choices for kinds
whose severity cannot be chosen, stay. -/
def restored (c base : Configuration) : Configuration where
  settings :=
    { eligible := base.settings.eligible.overlay c.settings.eligible Category.flags
      behavior := base.settings.behavior.overlay c.settings.behavior Behavior.flags
      overrides := c.settings.overrides
      severities := base.settings.severities.overlay c.settings.severities choosable }
  threshold := c.threshold

theorem restored_restored (c base : Configuration) : restored c (restored c base) = restored c base := by
  unfold restored
  simp only [FlagSet.overlay_overlay, UInt8.or_self, Severities.overlay_overlay]

theorem eligible_apply (s t : Settings) : ({
      fields := some (t.allows .fields)
      vars := some (t.allows .vars)
      parameters := some (t.allows .parameters)
      results := some (t.allows .results)
      implicitFields := some (t.allows .implicitFields) } : EligibleSwitches).apply s =
    { s with eligible := s.eligible.overlay t.eligible Category.flags } := by
  simp only [EligibleSwitches.apply, EligibleSwitches.pairs, List.foldl, Option.elim, Settings.setCategory,
    Settings.allows, FlagSet.set_enabled (Category.flag_mem _), FlagSet.overlay_overlay]
  rfl

theorem behavior_apply (s t : Settings) : ({
      generated := some (t.has .generated)
      crossPackage := some (t.has .crossPackage)
      errors := some (t.has .errors) } : BehaviorSwitches).apply s =
    { s with behavior := s.behavior.overlay t.behavior Behavior.flags } := by
  simp only [BehaviorSwitches.apply, BehaviorSwitches.pairs, List.foldl, Option.elim, Settings.setBehavior,
    Settings.has, FlagSet.set_enabled (Behavior.flag_mem _), FlagSet.overlay_overlay]
  rfl

/-- Severities listed by the names of their kinds are taken over, whatever the order. -/
theorem applySeverities_map (t : Severities) (ht : ∀ k, (t.of k).Declared) : ∀ (kinds : List FailureKind)
    (base : Configuration), (∀ k ∈ kinds, k ∈ FailureKind.all) →
      applySeverities (kinds.map fun k => (k.name, (t.of k).name)) base =
        ⟨{ base with settings := { base.settings with severities := base.settings.severities.overlay t kinds } }, none⟩
  | [], base, _ => by simp [applySeverities, Severities.overlay]
  | k :: kinds, base, h => by
    have hk : FailureKind.ofName? k.name = some k := FailureKind.ofName?_name k (h k List.mem_cons_self)
    have hrest : ∀ j ∈ kinds, j ∈ FailureKind.all := fun j hj => h j (List.mem_cons_of_mem k hj)
    simp only [List.map_cons, applySeverities, hk, Severity.ofWord_name (ht k)]
    rw [applySeverities_map t ht kinds _ hrest]
    simp only [Severities.overlay_set]

theorem apply_complete (hseverities : ∀ k, (c.settings.severities.of k).Declared) (hthreshold : c.threshold.Declared)
    {order : List (String × String)} (horder : order.Perm (ofConfiguration c).severities) (base : Configuration) :
    apply { ofConfiguration c with severities := order } base = ⟨restored c base, none⟩ := by
  -- an order of the entries is one of their kinds
  have hmap := congrFun (congrFun (List.eq_map_comp_perm fun k : FailureKind =>
    (k.name, (c.settings.severities.of k).name)) order) choosable
  obtain ⟨kinds, rfl, hkinds⟩ := hmap.mpr horder
  have hall : ∀ k ∈ kinds, k ∈ FailureKind.all := fun k hk => List.mem_of_mem_filter (hkinds.mem_iff.1 hk)
  unfold apply applyOverrides applyThreshold
  simp only [ofConfiguration, eligible_apply, behavior_apply, OverridePolicy.isEmpty_name, OverridePolicy.ofWord_name,
    Severity.isEmpty_name hthreshold, Severity.ofWord_name hthreshold, applySeverities_map _ hseverities kinds _ hall,
    Severities.overlay_congr hkinds]
  rfl

/-- Applying the file of a configuration with declared severities succeeds on every other one, in whatever order the
severities are taken. The result has the categories, behaviors, policy, severities and threshold of the configuration,
and the file changes nothing more of it. -/
theorem apply_ofConfiguration (hseverities : ∀ k, (c.settings.severities.of k).Declared)
    (hthreshold : c.threshold.Declared) (base : Configuration) : ∃ r,
      (∀ order, order.Perm (ofConfiguration c).severities →
        apply { ofConfiguration c with severities := order } base = ⟨r, none⟩ ∧
        apply { ofConfiguration c with severities := order } r = ⟨r, none⟩) ∧
      (∀ x, r.settings.allows x = c.settings.allows x) ∧ (∀ b, r.settings.has b = c.settings.has b) ∧
      r.settings.overrides = c.settings.overrides ∧
      (∀ k, r.settings.severities.of k = c.settings.severities.of k) ∧ r.threshold = c.threshold := by
  refine ⟨restored c base, fun order horder => ⟨?_, ?_⟩, fun x => ?_, fun b => ?_, rfl, fun k => ?_, rfl⟩
  · exact apply_complete hseverities hthreshold horder base
  · rw [apply_complete hseverities hthreshold horder, restored_restored]
  · exact FlagSet.enabled_overlay x.flag_and_flags
  · exact FlagSet.enabled_overlay b.flag_and_flags
  · exact Severities.of_overlay _ _ k

/-- Conversions are informational, implicit fields are eligible, and only errors are reported. -/
def lenient : Configuration where
  settings :=
    { (Settings.standard.setCategory .implicitFields true) with
      severities := Severities.standard.set .disallowed .info }
  threshold := .error

/-- No category is eligible, every behavior and all undeclared switches are on, and each kind is fatal. -/
def severe : Configuration := ⟨⟨⟨224⟩, ⟨255⟩, .exact, ⟨fun _ => .fatal⟩⟩, .fatal⟩

/-- Written to a file and laid over the severe configuration, the lenient one comes back. -/
theorem lenient_over_severe : ∃ r, (ofConfiguration lenient).apply severe = ⟨r, none⟩ ∧
    (ofConfiguration lenient).apply r = ⟨r, none⟩ ∧ r.settings.allows .implicitFields = true ∧
    r.settings.has .generated = false ∧ r.settings.overrides = .implements ∧
    r.settings.severities.of .disallowed = .info ∧ r.threshold = .error := by
  have hseverities : ∀ k, (lenient.settings.severities.of k).Declared := by
    intro k
    cases k with
    | unlisted n => exact (by decide : Severity.fatal.Declared)
    | _ => decide
  obtain ⟨r, happly, hallows, hhas, hoverrides, hof, hthreshold⟩ :=
    apply_ofConfiguration (c := lenient) hseverities (by decide) severe
  obtain ⟨hfirst, hsecond⟩ := happly _ (.refl _)
  exact ⟨r, hfirst, hsecond, (hallows .implicitFields).trans rfl, (hhas .generated).trans rfl,
    hoverrides.trans rfl, (hof .disallowed).trans rfl, hthreshold.trans rfl⟩

end SettingsFile

end NilFlow
