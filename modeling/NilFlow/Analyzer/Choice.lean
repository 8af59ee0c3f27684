import NilFlow.Settings.Basic
import NilFlow.Text.LogLine
import NilFlow.Text.Truth

/-!
# Choices

The options a program passes to an analyzer, applied in order.

* `Choice`: one option; a group of options is an option itself.
* `Choice.apply`, `Choice.applyAll`: the configuration after options.
* `Choice.attributes`: the options as attributes of a log line.
-/

namespace NilFlow

inductive Choice where
  | behavior (b : Behavior) (on : Bool)
  | category (c : Category) (on : Bool)
  | overrides (p : OverridePolicy)
  | threshold (s : Severity)
  /-- The severity of a failure kind, given by its code or name; a word that names none changes nothing. -/
  | severity (kind : String) (s : Severity)
  /-- Whether progress is logged, which changes no result. -/
  | logger (on : Bool)
  /-- No option at all. -/
  | absent
  | group (choices : List Choice)

namespace Choice

mutual

def apply (c : Configuration) : Choice → Configuration
  | behavior b on => { c with settings := c.settings.setBehavior b on }
  | category k on => { c with settings := c.settings.setCategory k on }
  | overrides p => { c with settings := { c.settings with overrides := p } }
  | threshold s => { c with threshold := s }
  | severity kind s =>
    match FailureKind.ofName? kind with
    | some k => { c with settings := { c.settings with severities := c.settings.severities.set k s } }
    | none => c
  | logger _ => c
  | absent => c
  | group cs => applyAll c cs

def applyAll (c : Configuration) : List Choice → Configuration
  | [] => c
  | x :: xs => applyAll (apply c x) xs

end

@[simp] theorem apply_overrides (c : Configuration) (p : OverridePolicy) :
    apply c (overrides p) = { c with settings := { c.settings with overrides := p } } := rfl

@[simp] theorem apply_threshold (c : Configuration) (s : Severity) :
    apply c (threshold s) = { c with threshold := s } := rfl

@[simp] theorem applyAll_nil (c : Configuration) : applyAll c [] = c := rfl

@[simp] theorem applyAll_cons (c : Configuration) (x : Choice) (xs : List Choice) :
    applyAll c (x :: xs) = applyAll (apply c x) xs := rfl

mutual

def attributes : Choice → List (String × String)
  | behavior b on => [(b.name, boolText on)]
  | category c on => [(c.name, boolText on)]
  | overrides p => [("overrides", p.name)]
  | threshold s => [("threshold", s.name)]
  | severity kind s => [("severity." ++ kind, s.name)]
  | logger on => [("logger", boolText on)]
  | absent => [("nil", "<nil>")]
  | group cs => allAttributes cs

/-- Options as attributes of a log line; groups are flattened. -/
def allAttributes : List Choice → List (String × String)
  | [] => []
  | x :: xs => attributes x ++ allAttributes xs

end

def logLine (message : String) (choices : List Choice) : LogLine :=
  ⟨.info, message, "options.", allAttributes choices⟩

end Choice

end NilFlow
