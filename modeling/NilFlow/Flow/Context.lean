import NilFlow.Program.Index

/-!
# Contexts of expressions

What happens to the value of an expression is decided by the place that its parent gives it.

* `Context`: the kinds of places, with their codes.
* `literalForm?`, `isStructLiteral`: what a composite literal builds.
* `contextOf`: the place of the expression at a cursor.
-/

namespace NilFlow

/-- The place of an expression in its parent. -/
inductive Context where
  /-- A place that is not followed. -/
  | unknown
  /-- The right-hand side of an assignment. -/
  | assignValue
  /-- The left-hand side of an assignment. -/
  | assignTarget
  /-- The initializer of a variable declaration. -/
  | specValue
  /-- A name of a variable declaration. -/
  | specName
  /-- A name of a struct field declaration. -/
  | fieldName
  /-- A returned expression. -/
  | returned
  /-- A call argument. -/
  | argument
  /-- The callee of a call that produces a result. -/
  | call
  /-- The operand of a type conversion. -/
  | conversion
  /-- The operand of an expression that passes its value on: parentheses, slicing, address-of and receive. -/
  | transparent
  /-- The operand of an index or dereference expression. -/
  | container
  /-- An unkeyed element of a composite literal. -/
  | element
  /-- The value of a keyed element of a composite literal. -/
  | keyedValue
  /-- The field name of a keyed element of a struct literal. -/
  | fieldKey
  /-- The value of a send statement. -/
  | sendValue
  /-- The channel of a send statement. -/
  | sendChan
  /-- The key or value variable of a range statement. -/
  | rangeVar
  /-- The expression that a range statement iterates over. -/
  | rangeOver
  /-- An operand of a comparison or a switch case. -/
  | comparison
  /-- A read that does not pass the value on. -/
  | use
  /-- A declaring identifier of a parameter, result or function. -/
  | declaration
  /-- A number that is no context. -/
  | unlisted (number : Nat)
deriving DecidableEq, Repr, Inhabited

namespace Context

/-- The listed contexts, in the order of their numbers. -/
def all : List Context :=
  [unknown, assignValue, assignTarget, specValue, specName, fieldName, returned, argument, call, conversion,
    transparent, container, element, keyedValue, fieldKey, sendValue, sendChan, rangeVar, rangeOver, comparison, use,
    declaration]

/-- The codes of the contexts, in the order of their numbers. -/
def codes : Enumeration :=
  ⟨"Context", ["unk", "asv", "ast", "spv", "spn", "fld", "ret", "arg", "cal", "cnv", "par", "idx", "elt", "kvv", "key",
    "snd", "sch", "rvr", "rng", "cmp", "use", "dcl"]⟩

def number : Context → Nat
  | unlisted n => n
  | c => all.idxOf c

def code (c : Context) : String := codes.name c.number

def ofNumber (n : Nat) : Context := all.getD n (unlisted n)

end Context

/-! ## Composite literals -/

/-- What a composite literal builds, the pointer of an elided literal removed. -/
def literalForm? (T : Typing) (lit : Node) : Option TypeForm :=
  lit.facts.type.map fun t =>
    match T.under t with
    | .pointer e => T.under e
    | form => form

def structFields? (T : Typing) (lit : Node) : Option (List ObjectId) :=
  match literalForm? T lit with
  | some (.struct fields) => some fields
  | _ => none

def isStructLiteral (T : Typing) (n : Node) : Bool := n.kind = .compositeLit && (structFields? T n).isSome

/-! ## The dispatch -/

/-- Whether an assignment stores its values as they are. -/
def plainAssign (stmt : Node) : Bool := stmt.facts.operator = "=" || stmt.facts.operator = ":="

def isConversion (call : Node) : Bool := (call.child? .callee).any (·.facts.isType)

/-- Whether the field declaration below these steps belongs to a struct type. -/
def isStructField : List Step → Bool
  | _ :: list :: struct :: _ => list.parent.field = some .fields && struct.parent.kind = .structType
  | _ => false

/-- The place of an expression, given its parent's fields. -/
def contextAt (T : Typing) (node : Node) (up : List Step) (e : Edge) (parent : Node) : Context :=
  match e.parent, e.field with
  | .assignStmt, .lhs => if plainAssign parent then .assignTarget else .use
  | .assignStmt, .rhs => if plainAssign parent then .assignValue else .use
  | .binaryExpr, .x | .binaryExpr, .y =>
    if parent.facts.operator = "==" || parent.facts.operator = "!=" then .comparison else .use
  | .callExpr, .args => if isConversion parent then .conversion else .argument
  | .caseClause, .list | .switchStmt, .tag => .comparison
  | .compositeLit, .elts => .element
  | .field, .names => if isStructField up then .fieldName else .declaration
  | .funcDecl, .name | .funcDecl, .recv | .funcType, .params | .funcType, .results => .declaration
  | .indexExpr, .x | .starExpr, .x => if node.facts.type.any T.isContainer then .container else .use
  | .keyValueExpr, .key =>
    if (up.drop 1).head?.any (fun s => isStructLiteral T s.parent) then .fieldKey else .use
  | .keyValueExpr, .value => .keyedValue
  | .parenExpr, .x | .sliceExpr, .x => .transparent
  | .rangeStmt, .key | .rangeStmt, .value => .rangeVar
  | .rangeStmt, .x => .rangeOver
  | .returnStmt, .results => .returned
  | .sendStmt, .chan => .sendChan
  | .sendStmt, .value => .sendValue
  | .unaryExpr, .x =>
    if parent.facts.operator = "&" || parent.facts.operator = "<-" then .transparent else .use
  | .valueSpec, .names => .specName
  | .valueSpec, .values => .specValue
  | .callExpr, .callee | .deferStmt, .call | .exprStmt, .x | .forStmt, .cond | .goStmt, .call | .ifStmt, .cond
  | .incDecStmt, .x | .indexExpr, .index | .indexListExpr, .x | .indexListExpr, .indices | .selectorExpr, .x
  | .sliceExpr, .low | .sliceExpr, .high | .sliceExpr, .max | .typeAssertExpr, .x => .use
  | _, _ => .unknown

def contextOf (T : Typing) (c : Cursor) : Context :=
  match c.ancestors, c.edge? with
  | s :: _, some e => contextAt T c.node c.ancestors e s.parent
  | _, _ => .unknown

end NilFlow
