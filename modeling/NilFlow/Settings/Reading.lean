import NilFlow.Settings.File
import NilFlow.Yaml.Mapping

/-!
# Reading settings files

* `SettingsFile.ofYaml`: the settings file of a YAML text.
* `SettingsFile.violations`: the words in it that name nothing.
* `SettingsFile.parse`: a text that is well formed, fits and names only what there is.
* `SettingsReadError`: what is wrong with a text.
-/

namespace NilFlow

/-- A word in a settings file that names nothing: the field it stands in, and the rule it breaks. -/
structure Violation where
  field : String
  rule : String
deriving DecidableEq, Repr

namespace Violation

def brief (v : Violation) : String := "File." ++ v.field ++ " " ++ v.rule

def message (v : Violation) : String :=
  "Key: 'File." ++ v.field ++ "' Error:Field validation for '" ++ v.field ++ "' failed on the '" ++ v.rule ++ "' tag"

end Violation

inductive SettingsReadError where
  | malformed (e : Yaml.SyntaxError)
  | misfit (cs : List Yaml.Complaint)
  | invalid (vs : List Violation)
deriving DecidableEq, Repr

namespace SettingsReadError

def message : SettingsReadError → String
  | malformed e => "invalid configuration: " ++ e.message
  | misfit cs => "invalid configuration: yaml: unmarshal errors:\n  " ++ "\n  ".intercalate (cs.map (·.text))
  | invalid vs => "invalid configuration: " ++ "\n".intercalate (vs.map (·.message))

end SettingsReadError

namespace SettingsFile

open Yaml

/-! ## Fields -/

def readEligible (d : Document) (e : EligibleSwitches) (name : String) (f : Field) :
    Option (Reader EligibleSwitches) :=
  let switch := Reader.switch? d f.via f.value
  match name with
  | "fields" => some do return { e with fields := ← switch }
  | "variables" => some do return { e with vars := ← switch }
  | "parameters" => some do return { e with parameters := ← switch }
  | "results" => some do return { e with results := ← switch }
  | "implicit-fields" => some do return { e with implicitFields := ← switch }
  | _ => none

def readBehavior (d : Document) (b : BehaviorSwitches) (name : String) (f : Field) :
    Option (Reader BehaviorSwitches) :=
  let switch := Reader.switch? d f.via f.value
  match name with
  | "generated" => some do return { b with generated := ← switch }
  | "cross-package" => some do return { b with crossPackage := ← switch }
  | "errors" => some do return { b with errors := ← switch }
  | _ => none

/-- Reads a word; a null leaves it empty. -/
def readWord (d : Document) (f : Field) : Reader String := do
  match ← Reader.text? d f.via f.value with
  | .text w => return w
  | _ => return ""

def putWord (pairs : List (String × String)) (name word : String) : List (String × String) :=
  if pairs.any (·.1 = name) then pairs.map fun p => if p.1 = name then (name, word) else p else pairs ++ [(name, word)]

/-- The words of names while a mapping is read: those so far, if a mapping was met, and whether the current one is the
first. -/
structure WordMap where
  words : Option (List (String × String))
  first : Bool

namespace WordMap

def enter (m : WordMap) : WordMap := ⟨some (m.words.getD []), m.words.isNone⟩

def put (m : WordMap) (name word : String) : WordMap := { m with words := some (putWord (m.words.getD []) name word) }

/-- The words with the word of a name empty; a mapping that is merged in leaves a word that was set. -/
def clear (m : WordMap) (name : String) : WordMap :=
  if m.first || !((m.words.getD []).any (·.1 = name)) then m.put name "" else m

/-- Reads the word of a name; a null is the empty word. -/
def read (d : Document) (m : WordMap) (name : String) (f : Field) : Reader WordMap := do
  match ← Reader.text? d f.via f.value with
  | .text w => return m.put name w
  | .null => return m.clear name
  | .unfit => return m

end WordMap

def readWords (d : Document) (f : Field) : Reader (List (String × String)) := do
  let m ← Reader.fields d f.via f.value "map[string]string" ⟨WordMap.enter, WordMap.read d⟩ ⟨none, false⟩
  return m.words.getD []

def readField (d : Document) (file : SettingsFile) (name : String) (f : Field) : Option (Reader SettingsFile) :=
  match name with
  | "eligible" => some do
    return { file with
      eligible := ← Reader.record d f.via f.value "config.EligibleFile" (readEligible d) file.eligible }
  | "behavior" => some do
    return { file with
      behavior := ← Reader.record d f.via f.value "config.BehaviorFile" (readBehavior d) file.behavior }
  | "overrides" => some do return { file with overrides := ← readWord d f }
  | "threshold" => some do return { file with threshold := ← readWord d f }
  | "severities" => some do return { file with severities := ← readWords d f }
  | _ => none

/-! ## Files -/

/-- Reads the root of a document. The document itself counts as visited. -/
def readRoot (d : Document) : Reader SettingsFile := do
  Reader.visit []
  Reader.record d [] d.root "config.File" (readField d) empty

/-- The settings file of a YAML text; an empty text sets nothing. -/
def ofYaml (text : String) : Except SettingsReadError SettingsFile :=
  match Document.ofText text with
  | .error e => .error (.malformed e)
  | .ok none => .ok empty
  | .ok (some d) =>
    match (readRoot d).run .start with
    | .error e => .error (.malformed e)
    | .ok (file, p) => if p.complaints.isEmpty then .ok file else .error (.misfit p.complaints.reverse)

/-- Whether a word that may be left empty names a level. -/
def namesLevel {α : Type} (ofWord : String → Except LevelError α) (w : String) : Bool := (ofWord w).isOk

/-- The words of a severity that name nothing: its kind, its level, or both. -/
def severityViolations (p : String × String) : List Violation :=
  let field := "Severities[" ++ p.1 ++ "]"
  (if (FailureKind.ofName? p.1).isSome then [] else [⟨field, "kind"⟩]) ++
    if namesLevel Severity.ofWord p.2 then [] else [⟨field, "severity"⟩]

def violations (file : SettingsFile) : List Violation :=
  (if namesLevel OverridePolicy.ofWord file.overrides then [] else [⟨"Overrides", "overrides"⟩]) ++
    (if namesLevel Severity.ofWord file.threshold then [] else [⟨"Threshold", "severity"⟩]) ++
    file.severities.flatMap severityViolations

/-- The settings file of a text, when nothing is wrong with it. -/
def parse (text : String) : Except SettingsReadError SettingsFile :=
  match ofYaml text with
  | .error e => .error e
  | .ok file => if file.violations.isEmpty then .ok file else .error (.invalid file.violations)

end SettingsFile

end NilFlow
