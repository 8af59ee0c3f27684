import NilFlow.Harvest
import NilFlow.Report.Description

/-!
# Reports

The outcome of a harvest in the words and places a reader sees, ready to be written in any format.

* `Report`, `Report.Group`, `Report.Element`, `Report.Entry`: the parts of a report.
* `Report.ofHarvest`: the report of an outcome, with file names as seen from a base directory.
* `Report.above`: the report without findings below a threshold.
-/

namespace NilFlow

namespace Report

structure Element where
  name : String
  kind : String
  package : String
  description : String
  implicit : Bool
  position : Location
deriving DecidableEq, Repr, Inhabited

/-- A finding as reported, with its place when it has one. -/
structure Entry where
  severity : String
  code : String
  kind : String
  message : String
  position : Option Location
deriving DecidableEq, Repr, Inhabited

/-- A group as reported. The elements may be left open. -/
structure Group where
  id : String
  severity : String
  elements : Option (List Element)
  occurrences : List Location
  status : List Entry
deriving DecidableEq, Repr, Inhabited

end Report

/-- A report. The groups may be left open, which differs from there being none only in the data formats. -/
structure Report where
  complete : Bool
  severity : String
  groups : Option (List Report.Group)
  ruledOut : List Report.Element
  status : List Report.Entry
deriving DecidableEq, Repr, Inhabited

/-- Where a finding is reported: at its own position, else at the declaration of its variable; zero is nowhere. -/
def Entry.reportPos (e : Entry) : Pos := if e.span.start ≠ 0 then e.span.start else e.var.elim 0 (·.pos)

namespace Report

/-! ## Places -/

/-- A file name as seen from a base directory; it stays as it is without a base, or when there is no way. -/
def fileFrom (base file : String) : String :=
  if base.isEmpty then file else ((Path.ofText base).relative? (Path.ofText file)).getD file

/-- The place of a position, with the file as seen from a base directory. -/
def placeOf (p : Program) (base : String) (pos : Pos) : Location :=
  if pos = 0 then .unknown
  else
    let l := p.locate pos
    { l with file := fileFrom base l.file }

/-! ## Parts -/

def Element.ofVariable (p : Program) (base : String) (v : Variable) (implicit : Bool) : Element where
  name := v.name
  kind := v.kind.name
  package := v.packagePath
  description := p.describe v
  implicit := implicit
  position := placeOf p base v.pos

def Entry.ofFinding (p : Program) (base : String) (e : NilFlow.Entry) : Entry where
  severity := e.severity.name
  code := e.kind.code
  kind := e.kind.name
  message := e.message
  position := if e.reportPos = 0 then none else some (placeOf p base e.reportPos)

def entriesOf (p : Program) (base : String) (s : Status) : List Entry := s.entries.map (.ofFinding p base)

def Group.ofGroup (p : Program) (base : String) (g : NilFlow.Group) : Group where
  id := g.id.text
  severity := g.status.severity.name
  elements := some (g.elements.map fun e => .ofVariable p base e.var e.implicit)
  occurrences := g.occurrences.map fun o => placeOf p base o.span.start
  status := entriesOf p base g.status

/-! ## The whole -/

def ofHarvest (p : Program) (h : Harvest) (base : String) : Report where
  complete := h.complete
  severity := h.status.severity.name
  groups := some (h.groups.map (.ofGroup p base))
  ruledOut := h.ruledOut.map fun v => .ofVariable p base v false
  status := entriesOf p base h.status

/-- Whether a finding is below a threshold. A severity that cannot be read is not. -/
def Entry.below (threshold : Severity) (e : Entry) : Bool :=
  match Severity.ofWord e.severity with
  | .ok s => s < threshold
  | .error _ => false

/-- The report without the findings below a threshold. The findings of groups stay. -/
def above (r : Report) (threshold : Severity) : Report :=
  { r with status := r.status.filter fun e => !e.below threshold }

/-- The groups, none when they are left open. -/
def groupList (r : Report) : List Group := r.groups.getD []

/-- The elements of a group, none when they are left open. -/
def Group.elementList (g : Group) : List Element := g.elements.getD []

end Report

end NilFlow
