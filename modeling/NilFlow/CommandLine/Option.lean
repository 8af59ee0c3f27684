import NilFlow.Settings.File
import NilFlow.Text.Csv
import NilFlow.Text.Truth

/-!
# Options of the command line

* `ReportFormat`: the formats of a report.
* `CommandOption`: the options, with their names and letters.
* `CommandOptions`: the values given to them; `CommandOptions.set` gives one.
* `CommandOptions.overlay`: the configuration with the given values laid over it.
-/

namespace NilFlow

inductive ReportFormat where
  | text
  | json
  | sarif
deriving DecidableEq, Repr

namespace ReportFormat

def ofWord? : String → Option ReportFormat
  | "text" => some text
  | "json" => some json
  | "sarif" => some sarif
  | _ => none

end ReportFormat

inductive CommandOption where
  | configFile
  | verbose
  | help
  | format
  | output
  | directory
  | tests
  | roots
  | declaration
  | behavior (b : Behavior)
  | category (c : Category)
  | overrides
  | threshold
  | severity
deriving DecidableEq, Repr

namespace CommandOption

def name : CommandOption → String
  | configFile => "config"
  | verbose => "verbose"
  | help => "help"
  | format => "format"
  | output => "output"
  | directory => "dir"
  | tests => "tests"
  | roots => "root"
  | declaration => "decl"
  | behavior b => b.name
  | category c => c.name
  | overrides => "overrides"
  | threshold => "threshold"
  | severity => "severity"

def letter? : CommandOption → Option Char
  | configFile => some 'c'
  | verbose => some 'v'
  | help => some 'h'
  | format => some 'f'
  | output => some 'o'
  | directory => some 'C'
  | _ => none

/-- Whether an option is a switch, which takes a value only after an equals sign. -/
def isSwitch : CommandOption → Bool
  | verbose | help | tests | behavior _ | category _ => true
  | _ => false

def shown (o : CommandOption) : String :=
  match o.letter? with
  | some c => "-" ++ String.ofList [c] ++ ", --" ++ o.name
  | none => "--" ++ o.name

def common : List CommandOption := [configFile, verbose]

def ofSettings : List CommandOption :=
  [behavior .generated, behavior .errors, behavior .crossPackage, category .fields, category .vars,
    category .parameters, category .results, category .implicitFields, overrides, threshold, severity]

end CommandOption

/-- The values given to options. What was not given is left open, or has its initial value. -/
structure CommandOptions where
  configFile : String
  verbose : Bool
  help : Bool
  format : ReportFormat
  output : String
  directory : String
  tests : Bool
  roots : Option (List String)
  declaration : Option String
  eligible : EligibleSwitches
  behavior : BehaviorSwitches
  overrides : Option OverridePolicy
  threshold : Option Severity
  severities : Option (List (String × String))
deriving DecidableEq, Repr

namespace EligibleSwitches

def set (e : EligibleSwitches) (c : Category) (on : Bool) : EligibleSwitches :=
  match c with
  | .fields => { e with fields := some on }
  | .vars => { e with vars := some on }
  | .parameters => { e with parameters := some on }
  | .results => { e with results := some on }
  | .implicitFields => { e with implicitFields := some on }

end EligibleSwitches

namespace BehaviorSwitches

def set (s : BehaviorSwitches) (b : Behavior) (on : Bool) : BehaviorSwitches :=
  match b with
  | .generated => { s with generated := some on }
  | .crossPackage => { s with crossPackage := some on }
  | .errors => { s with errors := some on }

end BehaviorSwitches

namespace CommandOptions

def initial : CommandOptions :=
  ⟨"", false, false, .text, "", "", false, none, none, SettingsFile.empty.eligible, SettingsFile.empty.behavior, none,
    none, none⟩

/-! ## Values -/

/-- A pair as its name and value, cut at the first equals sign. -/
def cutPair (s : String) : Except String (String × String) :=
  match s.toList.dropWhile (· ≠ '=') with
  | _ :: value => .ok (String.ofList (s.toList.takeWhile (· ≠ '=')), String.ofList value)
  | [] => .error (s ++ " must be formatted as key=value")

def unquote (s : String) : String :=
  String.ofList ((s.toList.dropWhile (· = '"')).reverse.dropWhile (· = '"')).reverse

/-- The pairs that a value lists: one alone, or several separated by commas. -/
def readPairs (value : String) : Except String (List (String × String)) :=
  match value.toList.count '=' with
  | 0 => .error (value ++ " must be formatted as key=value")
  | 1 => (cutPair (unquote value)).map ([·])
  | _ =>
    match Csv.record value with
    | .error e => .error e.message
    | .ok parts => parts.mapM cutPair

/-- The pairs with more pairs put in; the later of two with one name counts. -/
def putPairs (pairs more : List (String × String)) : List (String × String) :=
  more.foldl (fun ps p => if ps.any (·.1 = p.1) then ps.map fun q => if q.1 = p.1 then p else q else ps ++ [p]) pairs

/-- The parts that a value lists, separated by commas. -/
def readParts (value : String) : Except String (List String) :=
  if value.isEmpty then .ok [] else (Csv.record value).mapError (·.message)

def readTruth (value : String) : Except String Bool :=
  match truthOfWord? value with
  | some b => .ok b
  | none => .error (truthError value)

def readFormat (value : String) : Except String ReportFormat :=
  match ReportFormat.ofWord? value with
  | some f => .ok f
  | none => .error ("unknown format " ++ quoted value ++ ", want one of text, json or sarif")

/-- The options with one of them given a value, or what is wrong with the value. -/
def set (o : CommandOptions) (value : String) : CommandOption → Except String CommandOptions
  | .configFile => .ok { o with configFile := value }
  | .verbose => (readTruth value).map fun b => { o with verbose := b }
  | .help => (readTruth value).map fun b => { o with help := b }
  | .format => (readFormat value).map fun f => { o with format := f }
  | .output => .ok { o with output := value }
  | .directory => .ok { o with directory := value }
  | .tests => (readTruth value).map fun b => { o with tests := b }
  | .roots => (readParts value).map fun ps => { o with roots := some (o.roots.getD [] ++ ps) }
  | .declaration => .ok { o with declaration := some value }
  | .behavior k => (readTruth value).map fun b => { o with behavior := o.behavior.set k b }
  | .category c => (readTruth value).map fun b => { o with eligible := o.eligible.set c b }
  | .overrides => ((OverridePolicy.ofWord value).mapError (·.message)).map fun p => { o with overrides := some p }
  | .threshold => ((Severity.ofWord value).mapError (·.message)).map fun s => { o with threshold := some s }
  | .severity =>
    (readPairs value).map fun ps => { o with severities := some (putPairs (o.severities.getD []) ps) }

/-! ## Settings -/

/-- The configuration with the given values laid over it. Severities come last, and only their words can be bad. -/
def overlay (o : CommandOptions) (c : Configuration) : Except SettingsError Configuration :=
  let settings := o.behavior.apply (o.eligible.apply c.settings)
  let c : Configuration :=
    ⟨{ settings with overrides := o.overrides.getD settings.overrides }, o.threshold.getD c.threshold⟩
  match o.severities with
  | none => .ok c
  | some pairs => { SettingsFile.empty with severities := pairs }.applied c

end CommandOptions

end NilFlow
