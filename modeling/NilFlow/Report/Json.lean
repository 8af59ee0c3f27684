import NilFlow.Report.Basic
import NilFlow.Text.JsonValue

/-!
# Reports as JSON

* `Report.json`: a report as a JSON value; empty parts that a reader can do without are left out.
* `Report.jsonText`: its text.
-/

namespace NilFlow

def Location.json (l : Location) : JsonValue :=
  .obj [("file", .str l.file), ("line", .num l.line), ("column", .num l.column)]

namespace Report

def Element.json (e : Element) : JsonValue :=
  .obj (JsonValue.strField? "name" e.name ++ [("kind", .str e.kind)] ++ JsonValue.strField? "package" e.package ++
    [("description", .str e.description)] ++ (if e.implicit then [("implicit", .bool true)] else []) ++
    [("position", e.position.json)])

def Entry.json (e : Entry) : JsonValue :=
  .obj ([("severity", .str e.severity), ("code", .str e.code), ("kind", .str e.kind), ("message", .str e.message)] ++
    e.position.toList.map fun l => ("position", l.json))

/-- A list that may be left open. -/
def openList {α : Type} (json : α → JsonValue) (l : Option (List α)) : JsonValue :=
  l.elim .null fun items => .arr (items.map json)

def Group.json (g : Group) : JsonValue :=
  .obj ([("id", .str g.id), ("severity", .str g.severity), ("elements", openList Element.json g.elements)] ++
    JsonValue.arrField? "occurrences" (g.occurrences.map Location.json) ++
    JsonValue.arrField? "status" (g.status.map Entry.json))

def json (r : Report) : JsonValue :=
  .obj ([("complete", .bool r.complete), ("severity", .str r.severity), ("groups", openList Group.json r.groups)] ++
    JsonValue.arrField? "notRefactorable" (r.ruledOut.map Element.json) ++
    JsonValue.arrField? "status" (r.status.map Entry.json))

/-- The JSON text of a report, ending its last line. -/
def jsonText (r : Report) : String := r.json.text ++ "\n"

end Report

end NilFlow
