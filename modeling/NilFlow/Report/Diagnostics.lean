import NilFlow.Report.Basic

/-!
# Diagnostics

The outcome of a harvest as messages at places in the source, for editors and linters.

* `Diagnostic`: a message with its place and related places.
* `Program.groupDiagnostic?`, `Program.entryDiagnostic?`: the messages about a group and a finding.
* `Program.diagnostics`: all messages of a harvest, from a threshold on.
-/

namespace NilFlow

/-- A message about a stretch of source, with further places and what is said there. -/
structure Diagnostic where
  span : Span
  category : String
  message : String
  related : List (Pos × String)
deriving DecidableEq, Repr, Inhabited

namespace Program

/-- Whether messages at a position are suppressed: it is outside the program, or its line has a suppressing comment. -/
def silent (p : Program) (pos : Pos) : Bool :=
  match p.fileAt? pos with
  | none => true
  | some (_, file) => file.suppressedAt pos

/-- The message about a convertible group: it stands at the first element, the others are related to it. -/
def groupDiagnostic? (p : Program) (g : Group) : Option Diagnostic :=
  match g.vars with
  | [] => none
  | first :: others =>
    if p.silent first.pos then none
    else
      let names := enumerate ((first :: others).map p.describe)
      let rest :=
        if others.isEmpty then " may be nil and can become optional (no:grp)"
        else " share nil values and can become optional together (no:grp)"
      some
        { span := ⟨first.pos, first.pos + first.name.utf8ByteSize⟩
          category := "group"
          message := names ++ rest
          related := others.map fun v => (v.pos, "Shares nil values with " ++ p.describe v) }

def entryMessage (e : Entry) : String := e.message ++ " (no:" ++ e.kind.code ++ ")"

/-- The message about a finding that reports a contradiction in the program's own data. -/
def internalDiagnostic? (e : Entry) : Option Diagnostic :=
  if e.reportPos = 0 then none
  else some ⟨⟨e.reportPos, max e.reportPos e.span.stop⟩, "internal", "Internal Error: " ++ entryMessage e, []⟩

def entryDiagnostic? (p : Program) (e : Entry) : Option Diagnostic :=
  if e.reportPos = 0 || p.silent e.reportPos then none
  else some ⟨⟨e.reportPos, max e.reportPos e.span.stop⟩, e.severity.name, entryMessage e, []⟩

/-- The message about a finding of a run: contradictions are always reported, other findings from a threshold on. -/
def findingDiagnostic? (p : Program) (threshold : Severity) (e : Entry) : Option Diagnostic :=
  if e.kind = .missingBinding || e.kind = .modelError then internalDiagnostic? e
  else if threshold ≤ e.severity then p.entryDiagnostic? e
  else none

/-- The messages of a harvest: first the convertible groups, then the findings. -/
def diagnostics (p : Program) (h : Harvest) (threshold : Severity) : List Diagnostic :=
  (h.groups.filter (·.status.ok)).filterMap p.groupDiagnostic? ++
    h.status.entries.filterMap (p.findingDiagnostic? threshold)

end Program

end NilFlow
