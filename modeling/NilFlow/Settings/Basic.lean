import NilFlow.Settings.FlagSet
import NilFlow.Status

/-!
# Settings

What a run may convert, how it behaves and how it grades its findings.

* `Category`, `Behavior`: the switches of a run, each with its flag.
* `Severities`: the severity of every failure kind; fatal kinds are never graded down.
* `Settings`: all of them with the override policy; `Settings.entry` grades a failure.
* `Configuration`: settings with the threshold of a report.
-/

namespace NilFlow

/-! ## Switches -/

/-- The categories of elements that may be eligible for conversion. -/
inductive Category where
  | fields
  | vars
  | parameters
  | results
  /-- Fields and package variables that are nil only for want of an initializer. -/
  | implicitFields
deriving DecidableEq, Repr

namespace Category

def flag : Category → UInt8
  | fields => 1
  | vars => 2
  | parameters => 4
  | results => 8
  | implicitFields => 16

def name : Category → String
  | fields => "fields"
  | vars => "variables"
  | parameters => "parameters"
  | results => "results"
  | implicitFields => "implicit-fields"

def ofKind : ElementKind → Category
  | .field => fields
  | .var => vars
  | .parameter => parameters
  | .result => results

end Category

inductive Behavior where
  /-- Generated files are writable and seeded. -/
  | generated
  /-- Groups may span more than the root packages. -/
  | crossPackage
  /-- Elements of type error are considered. -/
  | errors
deriving DecidableEq, Repr

namespace Behavior

def flag : Behavior → UInt8
  | generated => 1
  | crossPackage => 2
  | errors => 4

def name : Behavior → String
  | generated => "generated"
  | crossPackage => "cross-package"
  | errors => "errors"

end Behavior

/-! ## Severities of failures -/

/-- The severity chosen for each failure kind. -/
structure Severities where
  chosen : FailureKind → Severity

namespace Severities

/-- Fatal kinds are fatal, findings about whole groups are errors, everything else is a warning. -/
def standard : Severities where
  chosen k :=
    if k.fatal then Severity.fatal
    else if k = .ineligible ∨ k = .foreignPackage then Severity.error
    else Severity.warning

/-- The severity of a kind. Fatal kinds and numbers that are no kind are fatal whatever was chosen. -/
def of (s : Severities) (k : FailureKind) : Severity :=
  match k with
  | .unlisted _ => Severity.fatal
  | _ => if k.fatal then Severity.fatal else s.chosen k

/-- The severities with another choice for one kind. -/
def set (s : Severities) (k : FailureKind) (v : Severity) : Severities where
  chosen j := if j = k then v else s.chosen j

end Severities

/-! ## Settings -/

structure Settings where
  eligible : FlagSet
  behavior : FlagSet
  overrides : OverridePolicy
  severities : Severities

namespace Settings

/-- The settings without any option: all categories but the implicit one, across packages. -/
def standard : Settings where
  eligible := FlagSet.ofFlags
    [Category.fields.flag, Category.vars.flag, Category.parameters.flag, Category.results.flag]
  behavior := FlagSet.ofFlags [Behavior.crossPackage.flag]
  overrides := .implements
  severities := Severities.standard

def allows (s : Settings) (c : Category) : Bool := s.eligible.enabled c.flag

def has (s : Settings) (b : Behavior) : Bool := s.behavior.enabled b.flag

def setCategory (s : Settings) (c : Category) (on : Bool) : Settings :=
  { s with eligible := s.eligible.set c.flag on }

def setBehavior (s : Settings) (b : Behavior) (on : Bool) : Settings :=
  { s with behavior := s.behavior.set b.flag on }

def entry (s : Settings) (f : Failure) : Entry where
  severity := s.severities.of f.kind
  kind := f.kind
  message := f.message
  var := f.var
  span := f.span

end Settings

/-- Settings with the least severity that a report shows. -/
structure Configuration where
  settings : Settings
  threshold : Severity

namespace Configuration

/-- The standard settings, reporting warnings and worse. -/
def standard : Configuration := ⟨Settings.standard, Severity.warning⟩

end Configuration

end NilFlow
