import NilFlow.Report.Json

/-!
# Reports as SARIF logs

The interchange format of static analysis results, version 2.1.0.

* `SarifRule`, `SarifResult`, `SarifLog`: the parts of a log that a report fills in.
* `SarifLog.ofReport`: every convertible group becomes a result located at its elements, every finding a result of the
  rule named after its code.
* `Report.sarif`: the log as a JSON value.
-/

namespace NilFlow

structure SarifRule where
  id : String
  description : String
  level : String
deriving DecidableEq, Repr, Inhabited

/-- A result of a rule. Results about groups name their group. -/
structure SarifResult where
  group : Option String
  rule : String
  level : String
  message : String
  places : List Location
deriving DecidableEq, Repr, Inhabited

structure SarifLog where
  rules : List SarifRule
  results : List SarifResult
deriving DecidableEq, Repr, Inhabited

namespace SarifRule

/-- The rule of convertible groups. -/
def groupId : String := "grp"

def group : SarifRule :=
  ⟨groupId, "Elements sharing nil values that can be converted to an optional type together", "note"⟩

/-- Adds a rule at the end, or, when its identifier is known, replaces what is said of it. -/
def put (rules : List SarifRule) (r : SarifRule) : List SarifRule :=
  if rules.any (·.id = r.id) then rules.map fun s => if s.id = r.id then r else s else rules ++ [r]

def json (r : SarifRule) : JsonValue :=
  .obj [("id", .str r.id), ("shortDescription", .obj [("text", .str r.description)]),
    ("defaultConfiguration", .obj [("level", .str r.level)])]

end SarifRule

namespace SarifResult

def placeJson (l : Location) : JsonValue :=
  .obj [("physicalLocation", .obj
    [("artifactLocation", .obj [("uri", .str l.file)]),
      ("region", .obj [("startLine", .num l.line), ("startColumn", .num l.column)])])]

/-- The result as a JSON value, given the rules of its run. -/
def json (rules : List SarifRule) (r : SarifResult) : JsonValue :=
  .obj (r.group.toList.map (fun id => ("properties", .obj [("group", .str id)])) ++
    [("ruleId", .str r.rule), ("ruleIndex", .num (rules.findIdx (·.id = r.rule))), ("level", .str r.level),
      ("message", .obj [("text", .str r.message)])] ++
    JsonValue.arrField? "locations" (r.places.map placeJson))

end SarifResult

namespace SarifLog

def levelOf (severity : String) : String :=
  match severity with
  | "fatal" | "error" => "error"
  | "warning" => "warning"
  | "info" => "note"
  | _ => "none"

def groupResult (g : Report.Group) : SarifResult where
  group := some g.id
  rule := SarifRule.groupId
  level := "note"
  message := enumerate (g.elementList.map (·.description)) ++ " can become optional"
  places := g.elementList.map (·.position)

def entryResult (e : Report.Entry) : SarifResult where
  group := none
  rule := e.code
  level := levelOf e.severity
  message := e.message
  places := e.position.toList

/-- The log of a report: first the groups without findings, then the findings of the run. -/
def ofReport (r : Report) : SarifLog where
  rules := r.status.foldl (fun rules e => SarifRule.put rules ⟨e.code, e.kind, levelOf e.severity⟩) [SarifRule.group]
  results := (r.groupList.filter (·.status.isEmpty)).map groupResult ++ r.status.map entryResult

def json (l : SarifLog) : JsonValue :=
  .obj [("version", .str "2.1.0"), ("$schema", .str "https://json.schemastore.org/sarif-2.1.0.json"),
    ("runs", .arr [.obj
      [("tool", .obj [("driver", .obj
          [("informationUri", .str "https://pkg.go.dev/fillmore-labs.com/nilopt"), ("name", .str linterName),
            ("rules", .arr (l.rules.map SarifRule.json))])]),
        ("results", .arr (l.results.map (SarifResult.json l.rules)))]])]

end SarifLog

namespace Report

/-- A report as a SARIF log. -/
def sarif (r : Report) : JsonValue := (SarifLog.ofReport r).json

end Report

end NilFlow
