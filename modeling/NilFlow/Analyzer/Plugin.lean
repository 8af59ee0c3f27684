import NilFlow.Analyzer.Choice
import NilFlow.Text.JsonValue

/-!
# Plugin settings

The settings of the analyzer inside a larger linter, which hands them over as a JSON value.

* `PluginSettings`: the settings, all of them optional.
* `PluginSettings.ofJson`: reads them; names of settings may be written in any case.
* `PluginSettings.choices`: the options they stand for; `PluginSettings.analyzerChoices` adds that generated files are
  checked, since the linter filters them itself.
-/

namespace NilFlow

/-- Settings handed over by a linter. The severities are listed by their names, each once. -/
structure PluginSettings where
  errors : Option Bool
  fields : Option Bool
  vars : Option Bool
  parameters : Option Bool
  results : Option Bool
  implicitFields : Option Bool
  overrides : Option OverridePolicy
  threshold : Option Severity
  severities : List (String × Severity)
deriving DecidableEq, Repr, Inhabited

inductive PluginError where
  /-- A value has the wrong shape. -/
  | shape
  | unknownField (name : String)
  | level (e : LevelError)
  | unknownKind (word : String)
deriving DecidableEq, Repr

namespace PluginError

def message : PluginError → String
  | shape => "decoding settings: wrong shape"
  | unknownField name => "decoding settings: json: unknown field " ++ quoted name
  | level e => "decoding settings: " ++ e.message
  | unknownKind w => "nilopt: severity of " ++ quoted w ++ ": unknown failure kind"

end PluginError

namespace PluginSettings

def empty : PluginSettings := ⟨none, none, none, none, none, none, none, none, []⟩

/-! ## Reading -/

/-- Settings being read, with the first complaint. -/
structure Reading where
  settings : PluginSettings
  complaint : Option PluginError

namespace Reading

/-- Keeps a complaint unless there is an earlier one. -/
def complain (r : Reading) (e : PluginError) : Reading := { r with complaint := r.complaint.or (some e) }

end Reading

/-- A letter of a setting's name in a form that does not depend on case; two letters outside ASCII count as their ASCII
relatives. -/
def foldLetter (c : Char) : Char := if c = '\u017f' then 'S' else if c = '\u212a' then 'K' else c.toUpper

/-- Whether a text names a setting, in any case. -/
def named (key name : String) : Bool := key.toList.map foldLetter = name.toList.map foldLetter

/-- Reads a switch; null unsets it. -/
def readSwitch (r : Reading) (v : JsonValue) (set : PluginSettings → Option Bool → PluginSettings) : Reading :=
  match v with
  | .null => { r with settings := set r.settings none }
  | .bool b => { r with settings := set r.settings (some b) }
  | _ => r.complain .shape

/-- Reads a level given by its word; null unsets it. -/
def readLevel {α : Type} (r : Reading) (v : JsonValue) (ofWord : String → Except LevelError α)
    (set : PluginSettings → Option α → PluginSettings) : Reading :=
  match v with
  | .null => { r with settings := set r.settings none }
  | .str w =>
    match ofWord w with
    | .ok a => { r with settings := set r.settings (some a) }
    | .error e => r.complain (.level e)
  | _ => r.complain .shape

def putSeverity (severities : List (String × Severity)) (name : String) (s : Severity) : List (String × Severity) :=
  if severities.any (·.1 = name) then severities.map fun p => if p.1 = name then (name, s) else p
  else severities ++ [(name, s)]

/-- Reads the severity of a name; null stands for the lowest. -/
def readSeverity (r : Reading) (name : String) (v : JsonValue) : Reading :=
  let put (s : Severity) : Reading :=
    { r with settings := { r.settings with severities := putSeverity r.settings.severities name s } }
  match v with
  | .null => put .ok
  | .str w =>
    match Severity.ofWord w with
    | .ok s => put s
    | .error e => r.complain (.level e)
  | _ => r.complain .shape

def readField (r : Reading) (key : String) (v : JsonValue) : Reading :=
  if named key "errors" then readSwitch r v fun s b => { s with errors := b }
  else if named key "fields" then readSwitch r v fun s b => { s with fields := b }
  else if named key "variables" then readSwitch r v fun s b => { s with vars := b }
  else if named key "parameters" then readSwitch r v fun s b => { s with parameters := b }
  else if named key "results" then readSwitch r v fun s b => { s with results := b }
  else if named key "implicit-fields" then readSwitch r v fun s b => { s with implicitFields := b }
  else if named key "overrides" then readLevel r v OverridePolicy.ofWord fun s p => { s with overrides := p }
  else if named key "threshold" then readLevel r v Severity.ofWord fun s t => { s with threshold := t }
  else if named key "severities" then
    match v with
    | .null => { r with settings := { r.settings with severities := [] } }
    | .obj fields => fields.foldl (fun r (name, v) => readSeverity r name v) r
    | _ => r.complain .shape
  else r.complain (.unknownField key)

/-- The settings that a JSON value gives, or the first complaint about it. -/
def ofJson (v : JsonValue) : Except PluginError PluginSettings :=
  match v with
  | .null => .ok empty
  | .obj fields =>
    match fields.foldl (fun r (key, v) => readField r key v) ⟨empty, none⟩ with
    | ⟨_, some e⟩ => .error e
    | ⟨s, none⟩ => .ok s
  | _ => .error .shape

/-! ## Options -/

def plainChoices (s : PluginSettings) : List Choice :=
  (s.errors.map (.behavior .errors)).toList ++ (s.fields.map (.category .fields)).toList ++
    (s.vars.map (.category .vars)).toList ++ (s.parameters.map (.category .parameters)).toList ++
    (s.results.map (.category .results)).toList ++ (s.implicitFields.map (.category .implicitFields)).toList ++
    (s.overrides.map .overrides).toList ++ (s.threshold.map .threshold).toList

/-- The options of severities, up to the first name of no kind. -/
def severityChoices : List (String × Severity) → Except PluginError (List Choice)
  | [] => .ok []
  | (name, s) :: rest =>
    match FailureKind.ofName? name with
    | none => .error (.unknownKind name)
    | some _ => (severityChoices rest).map (.severity name s :: ·)

/-- The options that settings stand for; severities come last, in the order of their names. -/
def choices (s : PluginSettings) : Except PluginError (List Choice) :=
  (severityChoices (s.severities.mergeSort fun a b => decide (a.1 ≤ b.1))).map (s.plainChoices ++ ·)

def analyzerChoices (v : JsonValue) : Except PluginError (List Choice) :=
  match ofJson v with
  | .error e => .error e
  | .ok s => s.choices.map (· ++ [.behavior .generated true])

end PluginSettings

end NilFlow
