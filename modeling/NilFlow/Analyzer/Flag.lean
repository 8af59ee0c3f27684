import NilFlow.Settings.Basic
import NilFlow.Text.Truth

/-!
# Analyzer flags

The command line flags of the analyzer: one or two dashes, a name, and a value after an equals sign or, for flags that
are no switches, as the next argument.

* `Flag`: the flags, with their names, usage and values.
* `Flag.parse`: reads arguments up to the first that is no flag; `FlagError` is what is wrong with one.
* `Flag.usageText`: the flags with their usage and defaults.
-/

namespace NilFlow

inductive Flag where
  | behavior (b : Behavior)
  | category (c : Category)
  | overrides
  | threshold
deriving DecidableEq, Repr

inductive FlagError where
  | badForm (argument : String)
  | help
  | unknown (name : String)
  | badTruth (name value : String)
  | missingValue (name : String)
  | badLevel (name value : String) (e : LevelError)
deriving DecidableEq, Repr

namespace FlagError

def message : FlagError → String
  | badForm a => "bad flag syntax: " ++ a
  | help => "flag: help requested"
  | unknown name => "flag provided but not defined: -" ++ name
  | badTruth name value => "invalid boolean value " ++ quoted value ++ " for -" ++ name ++ ": " ++ truthError value
  | missingValue name => "flag needs an argument: -" ++ name
  | badLevel name value e => "invalid value " ++ quoted value ++ " for flag -" ++ name ++ ": " ++ e.message

end FlagError

namespace Flag

def all : List Flag :=
  [behavior .errors, category .fields, behavior .generated, category .implicitFields, overrides, category .parameters,
    category .results, threshold, category .vars]

def name : Flag → String
  | behavior b => b.name
  | category c => c.name
  | overrides => "overrides"
  | threshold => "threshold"

def usage : Flag → String
  | behavior .generated => "check generated files"
  | behavior .errors => "consider elements of type error"
  | behavior .crossPackage => "groups may span packages"
  | category .fields => "struct fields are eligible"
  | category .vars => "variables are eligible"
  | category .parameters => "parameters are eligible"
  | category .results => "function results are eligible"
  | category .implicitFields => "fields and package variables nil only by lack of initializer are eligible"
  | overrides => "methods sharing a parameter: exact, implements or signature"
  | threshold => "minimum severity of reported findings: info, warning, error or fatal"

def ofName? (name : String) : Option Flag := all.find? (·.name = name)

def value (c : Configuration) : Flag → String
  | behavior b => boolText (c.settings.has b)
  | category k => boolText (c.settings.allows k)
  | overrides => c.settings.overrides.name
  | threshold => c.threshold.name

/-- Whether a flag is a switch, which needs no value. -/
def isSwitch : Flag → Bool
  | behavior _ | category _ => true
  | overrides | threshold => false

/-- The configuration with a flag set to the value that a word names. -/
def set (c : Configuration) (word : String) : Flag → Except FlagError Configuration
  | f@(behavior b) =>
    match truthOfWord? word with
    | some on => .ok { c with settings := c.settings.setBehavior b on }
    | none => .error (.badTruth f.name word)
  | f@(category k) =>
    match truthOfWord? word with
    | some on => .ok { c with settings := c.settings.setCategory k on }
    | none => .error (.badTruth f.name word)
  | f@overrides =>
    match OverridePolicy.ofWord word with
    | .ok p => .ok { c with settings := { c.settings with overrides := p } }
    | .error e => .error (.badLevel f.name word e)
  | f@threshold =>
    match Severity.ofWord word with
    | .ok s => .ok { c with threshold := s }
    | .error e => .error (.badLevel f.name word e)

/-! ## Arguments -/

inductive Argument where
  /-- No flag. -/
  | plain
  /-- The end of the flags. -/
  | terminator
  | bad
  | flag (name : String) (value : Option String)
deriving DecidableEq, Repr

/-- The parts of a flag's text: the name up to an equals sign, which cannot come first, and the value after it. -/
def splitValue (text : List Char) : String × Option String :=
  match text with
  | [] => ("", none)
  | c :: rest =>
    match rest.dropWhile (· ≠ '=') with
    | _ :: value => (String.ofList (c :: rest.takeWhile (· ≠ '=')), some (String.ofList value))
    | [] => (String.ofList text, none)

/-- The parts of a flag's text, unless it starts with another dash or an equals sign. -/
def flagOrBad (text : List Char) : Argument :=
  match text with
  | [] | '-' :: _ | '=' :: _ => .bad
  | _ => let (name, value) := splitValue text; .flag name value

def readArgument (argument : String) : Argument :=
  match argument.toList with
  | ['-', '-'] => .terminator
  | '-' :: '-' :: text => flagOrBad text
  | '-' :: c :: text => flagOrBad (c :: text)
  | _ => .plain

/-- The result of reading arguments: the configuration reached, and the remaining arguments or what is wrong. -/
structure Parsed where
  configuration : Configuration
  rest : Except FlagError (List String)

/-- The result of setting a flag, before the remaining arguments are read. -/
def setThen (c : Configuration) (f : Flag) (word : String) (next : Configuration → Parsed) : Parsed :=
  match f.set c word with
  | .ok c => next c
  | .error e => ⟨c, .error e⟩

/-- Reads flags up to the first argument that is none. Flags set before an error stay set. -/
def parse (c : Configuration) : List String → Parsed
  | [] => ⟨c, .ok []⟩
  | a :: rest =>
    match readArgument a with
    | .plain => ⟨c, .ok (a :: rest)⟩
    | .terminator => ⟨c, .ok rest⟩
    | .bad => ⟨c, .error (.badForm a)⟩
    | .flag name value =>
      match ofName? name with
      | none => ⟨c, .error (if name = "help" || name = "h" then .help else .unknown name)⟩
      | some f =>
        match value with
        | some word => setThen c f word fun c => parse c rest
        | none =>
          if f.isSwitch then setThen c f (boolText true) fun c => parse c rest
          else match rest with
            | [] => ⟨c, .error (.missingValue name)⟩
            | word :: rest => setThen c f word fun c => parse c rest

/-! ## Usage -/

/-- The usage lines of a flag. Switches that are off by default do not show it. -/
def usageLines (c : Configuration) (f : Flag) : String :=
  let shown := if f.value c = boolText false then "" else " (default " ++ f.value c ++ ")"
  "  -" ++ f.name ++ (if f.isSwitch then "" else " value") ++ "\n    \t" ++ f.usage ++ shown ++ "\n"

/-- The usage of all flags, with the values of a configuration as defaults. -/
def usageText (c : Configuration) : String := "".intercalate (all.map (usageLines c))

end Flag

end NilFlow
