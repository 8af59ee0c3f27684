import NilFlow.Failure
import NilFlow.Severity

/-!
# Status

The findings of a run or a group.

* `Entry`: one finding.
* `Status`: findings in the order they were made; `Status.severity` is the worst of them.
-/

namespace NilFlow

/-- One finding, with the severity it was given. -/
structure Entry where
  severity : Severity
  kind : FailureKind
  message : String
  var : Option Variable
  span : Span
deriving DecidableEq, Repr, Inhabited

/-- Findings in the order they were made. -/
structure Status where
  entries : List Entry
deriving DecidableEq, Repr, Inhabited

namespace Status

def empty : Status := ⟨[]⟩

def add (s : Status) (e : Entry) : Status := ⟨s.entries ++ [e]⟩

def merge (s t : Status) : Status := ⟨s.entries ++ t.entries⟩

/-- The worst severity of any finding. -/
def severity (s : Status) : Severity := s.entries.foldl (fun a e => a.worse e.severity) Severity.ok

/-- Whether no finding is worse than informational. -/
def ok (s : Status) : Bool := s.severity ≤ Severity.info

def fatal (s : Status) : Bool := s.severity = Severity.fatal

/-! ## Laws of findings -/

@[simp] theorem entries_empty : empty.entries = [] := rfl

@[simp] theorem entries_add (s : Status) (e : Entry) : (s.add e).entries = s.entries ++ [e] := rfl

@[simp] theorem entries_merge (s t : Status) : (s.merge t).entries = s.entries ++ t.entries := rfl

end Status

end NilFlow
