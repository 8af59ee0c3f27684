import NilFlow.Flow.Basic
import NilFlow.Program.Root

/-!
# Seeding

Where the search starts: nil literals and the variables they reach, and fields and package variables without
initializer.

* `Seeds`: what seeding found.
* `conversionAround?`: the conversion that a nil literal is the operand of.
* `Classifier.seedAt`: what a single node adds.
* `Classifier.seed`: the seeds of a root, up to a fatal failure.
-/

namespace NilFlow

/-- What seeding found: the flow of the nil values, variables that receive one in a way that rules them out, and the
failures along the way. -/
structure Seeds where
  flow : Flow
  ruledOut : List Variable
  failures : List Failure
deriving DecidableEq, Repr, Inhabited

namespace Seeds

def empty : Seeds := ⟨.empty, [], []⟩

def addFlow (s : Seeds) (f : Flow) : Seeds := { s with flow := s.flow.append f }

def addFailure (s : Seeds) (f : Failure) (vars : List Variable) : Seeds :=
  { s with ruledOut := s.ruledOut ++ vars ++ f.var.toList, failures := s.failures ++ [f] }

end Seeds

/-- The call around an expression that is its argument, possibly in parentheses. -/
def conversionAbove (node : Node) : List Step → Option Cursor
  | [] => none
  | s :: up =>
    match s.parent.kind, node.field with
    | .parenExpr, some .x => conversionAbove s.parent up
    | .callExpr, some .args => some ⟨s.parent, up⟩
    | _, _ => none

/-- The conversion that the nil literal at a cursor is the operand of. -/
def conversionAround? (c : Cursor) : Option Cursor := conversionAbove c.node c.ancestors

def packageLevel (c : Cursor) : Bool := (c.parent?.bind Cursor.edge?) = some ⟨.file, .decls⟩

namespace Classifier

/-- A nil literal. A converted one rules out what the conversion is stored into; stored nowhere, it is ignored. -/
def seedNil (k : Classifier) (s : Seeds) (c : Cursor) : Except Failure Seeds :=
  let found := k.dependents c none
  match found.failure with
  | none => .ok (s.addFlow (k.flowOf found.found))
  | some f =>
    let f' := f.placedAt c.node.span
    if f.fatal then .error f
    else match (if f.kind = .disallowed then conversionAround? c else none) with
      | none => .ok (s.addFailure f' [])
      | some conversion =>
        let targets := k.dependents conversion none
        match targets.failure.filter Failure.fatal with
        | some g => .error g
        | none =>
          let flow := k.flowOf targets.found
          if flow.discoveries.isEmpty then .ok s else .ok (s.addFailure f' flow.vars)

/-- The flow of some names without initializer: each accepted variable is an implicit candidate of its own. -/
def implicitFlow (k : Classifier) (span : Span) (names : List Node) : Flow :=
  ((definedVars k.program.typing names none).filterMap fun o =>
    if (k.program.typing.varType? o).any k.accepts then
      (k.program.typing.variableOf? o).map fun v => Flow.discovering ⟨[⟨v, true⟩], false⟩ .declaration span
    else none).foldl .append .empty

/-- The seeds with what a node adds: nil literals, fields of struct types and package variables without initializer. -/
def seedAt (k : Classifier) (s : Seeds) (c : Cursor) : Except Failure Seeds :=
  match c.node.kind with
  | .ident => if isNilLiteral k.program.typing c.node then k.seedNil s c else .ok s
  | .structType =>
    let fields := ((c.node.child? .fields).elim [] (·.childrenAt .list))
    .ok (s.addFlow ((fields.map fun f => k.implicitFlow f.span (f.childrenAt .names)).foldl .append .empty))
  | .valueSpec =>
    if (c.node.childrenAt .values).isEmpty && packageLevel c then
      .ok (s.addFlow (k.implicitFlow c.node.span (c.node.childrenAt .names)))
    else .ok s
  | _ => .ok s

/-- The seeds of some nodes, one after the other, up to a fatal failure. -/
def seedAll (k : Classifier) : List Cursor → Seeds → Seeds × Option Failure
  | [], s => (s, none)
  | c :: cs, s =>
    match k.seedAt s c with
    | .error f => (s, some f)
    | .ok s => k.seedAll cs s

/-- The seeds of a root, with the fatal failure that stopped the scan. -/
def seed (k : Classifier) (root : Root) : Seeds × Option Failure :=
  k.seedAll (root.nodes.flatMap (·.cursor.preorder)) .empty

end Classifier

end NilFlow
