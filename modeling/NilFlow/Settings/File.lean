import NilFlow.Settings.Basic

/-!
# Settings files

The settings a user writes down: every value is optional, and levels are given by their words.

* `SettingsFile`: the content of a settings file; absent switches and empty words keep what they find.
* `SettingsFile.apply`: lays a file over a configuration; what precedes a bad word stays applied.
* `SettingsFile.ofConfiguration`: the complete file of a configuration.
-/

namespace NilFlow

inductive SettingsError where
  | level (e : LevelError)
  | unknownKind (word : String)
deriving DecidableEq, Repr

namespace SettingsError

def message : SettingsError → String
  | level e => "invalid configuration: " ++ e.message
  | unknownKind w => "invalid configuration: unknown failure kind " ++ quoted w

end SettingsError

structure EligibleSwitches where
  fields : Option Bool
  vars : Option Bool
  parameters : Option Bool
  results : Option Bool
  implicitFields : Option Bool
deriving DecidableEq, Repr, Inhabited

structure BehaviorSwitches where
  generated : Option Bool
  crossPackage : Option Bool
  errors : Option Bool
deriving DecidableEq, Repr, Inhabited

/-- A settings file. The severities are listed in the order in which they are applied. -/
structure SettingsFile where
  eligible : EligibleSwitches
  behavior : BehaviorSwitches
  overrides : String
  threshold : String
  severities : List (String × String)
deriving DecidableEq, Repr, Inhabited

namespace EligibleSwitches

def pairs (e : EligibleSwitches) : List (Category × Option Bool) :=
  [(.fields, e.fields), (.vars, e.vars), (.parameters, e.parameters), (.results, e.results),
    (.implicitFields, e.implicitFields)]

/-- The settings with every given category switched. -/
def apply (e : EligibleSwitches) (s : Settings) : Settings :=
  e.pairs.foldl (fun s p => p.2.elim s (s.setCategory p.1)) s

end EligibleSwitches

namespace BehaviorSwitches

def pairs (b : BehaviorSwitches) : List (Behavior × Option Bool) :=
  [(.generated, b.generated), (.crossPackage, b.crossPackage), (.errors, b.errors)]

/-- The settings with every given behavior switched. -/
def apply (b : BehaviorSwitches) (s : Settings) : Settings :=
  b.pairs.foldl (fun s p => p.2.elim s (s.setBehavior p.1)) s

end BehaviorSwitches

namespace SettingsFile

def empty : SettingsFile := ⟨⟨none, none, none, none, none⟩, ⟨none, none, none⟩, "", "", []⟩

/-- The result of applying a file: the configuration reached, and the error that stopped it there. -/
structure Applied where
  configuration : Configuration
  error : Option SettingsError

/-- Applies severities one after the other, up to the first bad kind or word. -/
def applySeverities : List (String × String) → Configuration → Applied
  | [], c => ⟨c, none⟩
  | (name, word) :: rest, c =>
    match FailureKind.ofName? name with
    | none => ⟨c, some (.unknownKind name)⟩
    | some kind =>
      match Severity.ofWord word with
      | .error e => ⟨c, some (.level e)⟩
      | .ok severity =>
        applySeverities rest
          { c with settings := { c.settings with severities := c.settings.severities.set kind severity } }

/-- Applies the threshold word, then the severities. -/
def applyThreshold (f : SettingsFile) (c : Configuration) : Applied :=
  if f.threshold.isEmpty then applySeverities f.severities c
  else match Severity.ofWord f.threshold with
    | .error e => ⟨c, some (.level e)⟩
    | .ok t => applySeverities f.severities { c with threshold := t }

/-- Applies the policy word, then the threshold and the severities. -/
def applyOverrides (f : SettingsFile) (c : Configuration) : Applied :=
  if f.overrides.isEmpty then f.applyThreshold c
  else match OverridePolicy.ofWord f.overrides with
    | .error e => ⟨c, some (.level e)⟩
    | .ok p => f.applyThreshold { c with settings := { c.settings with overrides := p } }

/-- Lays a file over a configuration: the switches first, then the policy, the threshold and the severities. -/
def apply (f : SettingsFile) (c : Configuration) : Applied :=
  f.applyOverrides { c with settings := f.behavior.apply (f.eligible.apply c.settings) }

/-- The configuration with a file applied, or the error that stopped it. -/
def applied (f : SettingsFile) (c : Configuration) : Except SettingsError Configuration :=
  match f.apply c with
  | ⟨c, none⟩ => .ok c
  | ⟨_, some e⟩ => .error e

/-- The failure kinds whose severity may be chosen. -/
def choosable : List FailureKind := FailureKind.all.filter (!·.fatal)

/-- The complete file of a configuration: every switch, both words and the severity of every choosable kind. -/
def ofConfiguration (c : Configuration) : SettingsFile where
  eligible :=
    { fields := some (c.settings.allows .fields)
      vars := some (c.settings.allows .vars)
      parameters := some (c.settings.allows .parameters)
      results := some (c.settings.allows .results)
      implicitFields := some (c.settings.allows .implicitFields) }
  behavior :=
    { generated := some (c.settings.has .generated)
      crossPackage := some (c.settings.has .crossPackage)
      errors := some (c.settings.has .errors) }
  overrides := c.settings.overrides.name
  threshold := c.threshold.name
  severities := choosable.map fun k => (k.name, (c.settings.severities.of k).name)

end SettingsFile

end NilFlow
