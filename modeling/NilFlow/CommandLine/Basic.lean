import NilFlow.CommandLine.Arguments
import NilFlow.CommandLine.Workspace
import NilFlow.Program.Root
import NilFlow.Report.PlainText
import NilFlow.Report.Sarif
import NilFlow.Settings.Reading
import NilFlow.Settings.Writing

/-!
# The command line

* `CommandError`: why a command fails.
* `Outcome`: what a command writes, where, and whether it failed.
* `Invocation.configuration`: the standard configuration, then the settings file, then the options.
* `Invocation.printConfiguration`, `Invocation.harvest`: the commands.
* `execute`: the command that arguments ask for, in a workspace.
-/

namespace NilFlow

inductive CommandError where
  | arguments (e : ArgumentError)
  | openSettings (file : String) (p : FileProblem)
  | readSettings (e : SettingsReadError)
  | settings (e : SettingsError)
  | load (e : LoadError)
  | program (e : ProgramError)
  | root (e : RootError)
  | harvest (e : HarvestError)
  | createReport (file : String) (p : FileProblem)
  | incomplete (severity : Severity)
deriving DecidableEq, Repr

namespace CommandError

/-- The wording of a command error. A directory can be opened, but not read. -/
def message : CommandError → String
  | arguments e => e.message
  | openSettings file .isDirectory =>
    "invalid configuration: yaml: input error: read " ++ file ++ ": " ++ FileProblem.isDirectory.message
  | openSettings file p => "can't open configuration: open " ++ file ++ ": " ++ p.message
  | readSettings e => e.message
  | settings e => e.message
  | load e => e.message
  | program e => e.message
  | root e => e.message
  | harvest e => e.message
  | createReport file p => "can't create report: open " ++ file ++ ": " ++ p.message
  | incomplete s => "harvest incomplete: " ++ s.name

end CommandError

/-- What a command leaves behind: its output, a file it writes, its log and its failure. -/
structure Outcome where
  output : String
  written : Option (String × String)
  log : List LogLine
  error : Option CommandError

namespace Outcome

def failed (e : CommandError) : Outcome := ⟨"", none, [], some e⟩

def code (o : Outcome) : UInt32 := if o.error.isSome then 1 else 0

def errorLine? (o : Outcome) : Option String := o.error.map fun e => "Error: " ++ e.message ++ "\n"

end Outcome

def helpText : String :=
  "nilopt finds groups of fields, variables, parameters and results that\n" ++
    "share nil values. Each group is a candidate for an optional type.\n"

namespace Invocation

/-! ## Settings -/

/-- The settings file that the options name; without one it sets nothing. -/
def settingsFile (i : Invocation) (w : Workspace) : Except CommandError SettingsFile :=
  if i.options.configFile.isEmpty then .ok .empty
  else match w.read i.options.configFile with
    | .error p => .error (.openSettings i.options.configFile p)
    | .ok text => (SettingsFile.parse text).mapError .readSettings

/-- The configuration of a command: the standard, then the settings file, then the options. -/
def configuration (i : Invocation) (w : Workspace) : Except CommandError Configuration :=
  match i.settingsFile w with
  | .error e => .error e
  | .ok file =>
    match file.applied .standard with
    | .error e => .error (.settings e)
    | .ok c => (i.options.overlay c).mapError .settings

def printConfiguration (i : Invocation) (w : Workspace) : Outcome :=
  match i.configuration w with
  | .error e => .failed e
  | .ok c => ⟨(SettingsFile.ofConfiguration c).yaml, none, [], none⟩

/-! ## Harvests -/

/-- The patterns of packages: those given, else everything below the directory. -/
def patterns (i : Invocation) : List String := if i.words.isEmpty then ["./..."] else i.words

/-- The directory that reports are relative to. -/
def base (i : Invocation) (w : Workspace) : String :=
  let directory := Path.ofText i.options.directory
  if directory.rooted then directory.text else (Path.ofText (w.directory ++ "/" ++ i.options.directory)).text

def program (i : Invocation) (w : Workspace) (settings : Settings) : Except CommandError (Nat × Program) :=
  match w.load i.options.directory i.options.tests i.patterns with
  | .error e => .error (.load e)
  | .ok l =>
    match Program.ofLoaded l.library l.typing l.files l.packages (settings.has .generated) false with
    | .error e => .error (.program e)
    | .ok p => .ok (l.packages.length, p)

def reportText (i : Invocation) (r : Report) : String :=
  match i.options.format with
  | .text => r.text false
  | .json => r.jsonText
  | .sarif => r.sarif.text

def harvestLog (i : Invocation) (packages : Nat) (h : Harvest) : List LogLine :=
  if i.options.verbose then
    ⟨.debug, "Loaded packages", "", [("count", packages.repr)]⟩ :: h.log ++
      [⟨.info, "Harvest finished", "", [("groups", h.groups.length.repr), ("complete", boolText h.complete)]⟩]
  else []

/-- Hands a report out: to the named file when it can be created, else to the output. -/
def deliver (i : Invocation) (w : Workspace) (text : String) (log : List LogLine) (error : Option CommandError) :
    Outcome :=
  if i.options.output.isEmpty then ⟨text, none, log, error⟩
  else match w.creationProblem? i.options.output with
    | some p => ⟨"", none, log, some (.createReport i.options.output p)⟩
    | none => ⟨"", some (i.options.output, text), log, error⟩

/-- Harvests a program from a root and reports what was found. An incomplete harvest is reported too, but fails. -/
def harvestFrom (i : Invocation) (w : Workspace) (c : Configuration) (packages : Nat) (p : Program) (root : Root) :
    Outcome :=
  match (Classifier.mk p c.settings).harvest root none with
  | .error e => .failed (.harvest e)
  | .ok h =>
    let report := (Report.ofHarvest p h (i.base w)).above c.threshold
    i.deliver w (i.reportText report) (i.harvestLog packages h)
      (if h.complete then none else some (.incomplete h.status.severity))

def harvest (i : Invocation) (w : Workspace) : Outcome :=
  match i.configuration w with
  | .error e => .failed e
  | .ok c =>
    match i.program w c.settings with
    | .error e => .failed e
    | .ok (packages, p) =>
      match p.selectRoot (i.options.roots.getD []) (i.options.declaration.getD "") with
      | .error e => .failed (.root e)
      | .ok root => i.harvestFrom w c packages p root

def run (i : Invocation) (w : Workspace) : Outcome :=
  match i.command with
  | .root | .help => ⟨helpText, none, [], none⟩
  | .config => i.printConfiguration w
  | .harvest => i.harvest w

end Invocation

def execute (w : Workspace) (args : List String) : Outcome :=
  match Invocation.ofArguments args with
  | .error e => .failed (.arguments e)
  | .ok i => i.run w

end NilFlow
