import NilFlow.Flow.Value

/-!
# What shares the type of a value

From an expression that may be nil upwards: the declarations that its value flows into or comes from, and which must
therefore share its type.

* `Finding`: objects found together at a place; `Findings` collects them up to a failure.
* `spread`: how values on the right meet receivers on the left.
* `Classifier`: a program with settings.
* `Classifier.dependents`: the walk from an expression up to the statement or declaration that takes its value.
-/

namespace NilFlow

/-! ## Findings -/

/-- Objects found together: each of them holds the value, and they are co-equal when `joint`. -/
structure Finding where
  context : Context
  span : Span
  objects : List ObjectId
  joint : Bool
deriving DecidableEq, Repr

/-- What was found, and the failure that ended the search. -/
structure Findings where
  found : List Finding
  failure : Option Failure
deriving DecidableEq, Repr

namespace Findings

/-- Nothing was found, and nothing failed. -/
def nothing : Findings := ⟨[], none⟩

def one (f : Finding) : Findings := ⟨[f], none⟩

def fail (f : Failure) : Findings := ⟨[], some f⟩

/-- What was found first, and then, unless that failed, what was found next. -/
def andThen (a b : Findings) : Findings :=
  match a.failure with
  | some _ => a
  | none => ⟨a.found ++ b.found, b.failure⟩

end Findings

/-! ## Receivers and values -/

/-- The receiver of value `i`: one each, or one tuple-valued call for all of them, or the first receiver of a comma-ok
expression. Numbers that are no counts are compared all the same. -/
def spread (i : Int) (slot : Option Nat) (receivers values : Int) : Option Int :=
  if receivers = values then some i
  else if values = 1 then
    match slot with
    | none => some 0
    | some s => if s < receivers then some s else none
  else none

/-- The receiver of value `i` among those of a statement. -/
def receiver? {α : Type} (i : Nat) (slot : Option Nat) (receivers : List α) (values : List Node) : Option α :=
  (spread i slot receivers.length values.length).bind (receivers[·.toNat]?)

/-- The place of the parameter that argument `i` of a call goes to. The slot is the component that the walk follows when
the argument is the only one. -/
def receivingPlace (call : Node) (i : Nat) (slot : Option Nat) : Option Nat :=
  argumentPlace (isMethodExprCall call) (if (call.childrenAt .args).length = 1 then slot.getD i else i)

/-- The variables that some names declare, blank names and the name at place `skip` left out. -/
def definedVars (T : Typing) (names : List Node) (skip : Option Nat) : List ObjectId :=
  names.zipIdx.filterMap fun (n, i) =>
    if n.facts.name = "_" || some i = skip then none else n.facts.declares.filter T.isVar

/-! ## The classifier -/

/-- A program and the settings under which its values are followed. -/
structure Classifier where
  program : Program
  settings : Settings

namespace Classifier

/-- Whether variables of a type are considered at all. -/
def accepts (k : Classifier) (t : TypeId) : Bool :=
  k.program.typing.nilable t && (k.settings.has .errors || !k.program.typing.isError t)

/-- A finding, unless the store wraps the value into an interface. -/
def stored (k : Classifier) (context : Context) (span : Span) (src : Option ValueType) (dst : Option TypeId)
    (objects : List ObjectId) : Findings :=
  if boxes k.program.typing src dst then .nothing else .one ⟨context, span, objects, false⟩

/-- What an assignable expression stores into. Without a type for the place, it is that of the expression. -/
def target (k : Classifier) (context : Context) (lhs : Node) (src : Option ValueType) (dst : Option TypeId) :
    Findings :=
  match resolve k.program.typing lhs with
  | .error f => .fail f
  | .ok none => .nothing
  | .ok (some v) => k.stored context lhs.span src (dst.or lhs.facts.type) [v]

/-- What holds the value of an expression that is stored into a place. -/
def source (k : Classifier) (context : Context) (e : Node) (slot : Option Nat) (dst : Option TypeId) : Findings :=
  if boxes k.program.typing (valueType? k.program.typing e slot) dst then .nothing
  else match producer k.program.typing e slot with
    | .error f => .fail f
    | .ok none => .nothing
    | .ok (some v) => .one ⟨context, e.span, [v], false⟩

/-! ### Statements and declarations -/

/-- The source of the receiver at place `i`: the value at that place, or a component of the only value. -/
def sourceAt (k : Classifier) (context : Context) (i : Nat) (receivers : Nat) (values : List Node) (dst : Option TypeId)
    (otherwise : Findings) : Findings :=
  if values.length = receivers then (values[i]?).elim otherwise fun e => k.source context e none dst
  else match values with
    | [e] => k.source context e (some i) dst
    | _ => otherwise

def assignedValue (k : Classifier) (stmt : Node) (i : Nat) (slot : Option Nat) (src : Option ValueType) : Findings :=
  let lhs := stmt.childrenAt .lhs
  let arity := Findings.fail ⟨.modelError, none, stmt.span, "assignment arity"⟩
  (receiver? i slot lhs (stmt.childrenAt .rhs)).elim arity fun e => k.target .assignValue e src none

def assignedTarget (k : Classifier) (stmt : Node) (i : Nat) (dst : Option TypeId) : Findings :=
  k.sourceAt .assignTarget i (stmt.childrenAt .lhs).length (stmt.childrenAt .rhs) dst
    (.fail ⟨.modelError, none, stmt.span, "assignment arity"⟩)

/-- An initializer of a variable declaration. Under a declared type it reaches all its names. -/
def specValue (k : Classifier) (spec : Node) (i : Nat) (slot : Option Nat) (src : Option ValueType) : Findings :=
  let names := spec.childrenAt .names
  if (spec.child? .typeExpr).isSome then
    match definedVars k.program.typing names none with
    | [] => .nothing
    | v :: vs => k.stored .specValue spec.span src (k.program.typing.varType? v) (v :: vs)
  else
    let arity := Findings.fail ⟨.modelError, none, spec.span, "declaration arity"⟩
    (receiver? i slot names (spec.childrenAt .values)).elim arity fun n => k.target .specValue n src none

/-- A name of a variable declaration. Under a declared type it goes with the other names. -/
def specName (k : Classifier) (spec : Node) (i : Nat) (dst : Option TypeId) : Findings :=
  let names := spec.childrenAt .names
  let siblings :=
    if (spec.child? .typeExpr).isSome then
      Findings.one ⟨.specName, spec.span, definedVars k.program.typing names (some i), false⟩
    else .nothing
  siblings.andThen (k.sourceAt .specName i names.length (spec.childrenAt .values) dst .nothing)

def returned (k : Classifier) (c : Cursor) (ret value : Node) (i : Nat) (slot : Option Nat) (src : Option ValueType) :
    Findings :=
  let T := k.program.typing
  match c.enclosing? with
  | none => .fail ⟨.modelError, none, ret.span, "no enclosing function"⟩
  | some fn =>
    if fn.kind = .funcLit then .fail ⟨.unclassifiable, none, ret.span, "returned from a function literal"⟩
    else match ((fn.child? .name).bind (·.facts.declares)).bind T.signature? with
      | none => .fail ⟨.modelError, none, ret.span, "no enclosing function"⟩
      | some sig =>
        match receiver? i slot sig.results (ret.childrenAt .results) with
        | none => .fail ⟨.modelError, none, ret.span, "return arity"⟩
        | some r => k.stored .returned value.span src (T.varType? r) [r]

/-- The parameters at a place of all declarations that share them, up to one that must not be edited. -/
def sharedParameters (k : Classifier) (call arg : Node) (place : Option Nat) (ellipsis : Bool) :
    List ObjectId → Except Failure (List ObjectId)
  | [] => .ok []
  | decl :: rest =>
    let T := k.program.typing
    match (T.signature? decl).bind fun sig => parameterAt? T sig place ellipsis with
    | none => .error ⟨.modelError, none, call.span, "argument arity of " ++ T.nameOf decl⟩
    | some (p, _) =>
      match (T.variableOf? p).bind k.program.declarationObstacle? with
      | some f => .error { f with span := arg.span }
      | none => (k.sharedParameters call arg place ellipsis rest).map (p :: ·)

/-- The parameter that receives argument `i` of a call, and the type that it is assigned to. -/
def receiving? (k : Classifier) (call : Node) (fn : ObjectId) (i : Nat) (slot : Option Nat) :
    Option (ObjectId × TypeId) :=
  let T := k.program.typing
  (T.signature? (T.originFunc fn)).bind fun sig => parameterAt? T sig (receivingPlace call i slot) call.facts.ellipsis

def passedTo (k : Classifier) (call arg : Node) (fn : ObjectId) (i : Nat) (slot : Option Nat) (src : Option ValueType) :
    Findings :=
  match k.receiving? call fn i slot with
  | none => .fail ⟨.modelError, none, call.span, "argument arity"⟩
  | some (_, dst) =>
    if boxes k.program.typing src (some dst) || !k.accepts dst then .nothing
    else match k.sharedParameters call arg (receivingPlace call i slot) call.facts.ellipsis
        (k.program.declarations k.settings.overrides fn) with
      | .error f => .fail f
      | .ok params => .one ⟨.argument, arg.span, params, true⟩

def sent (k : Classifier) (stmt : Node) (src : Option ValueType) : Findings :=
  match stmt.child? .chan with
  | none => .nothing
  | some chan =>
    let dst := match chan.facts.type.map k.program.typing.under with
      | some (.chan e) => some e
      | _ => none
    k.target .sendValue chan src dst

/-- The variables that a range statement assigns, when it iterates over something that holds their values. -/
def ranged (k : Classifier) (stmt : Node) : Findings :=
  if (stmt.childType? .x).any k.program.typing.isContainer then
    let store (f : FieldName) := (stmt.child? f).elim Findings.nothing fun e => k.target .rangeOver e none none
    (store .key).andThen (store .value)
  else .nothing

def keyedField (k : Classifier) (kv : Node) (src : Option ValueType) : Findings :=
  match (kv.child? .key).elim (.ok none) (resolve k.program.typing) with
  | .error f => .fail f
  | .ok none => .nothing
  | .ok (some field) =>
    k.stored .keyedValue kv.span src (k.program.typing.varType? (k.program.typing.originVar field)) [field]

/-! ### The walk -/

/-- What must share the type of the expression at a node with its way up. The slot selects a result of a call. -/
def dependentsFrom (k : Classifier) (node : Node) : List Step → Option Nat → Findings
  | [], _ => .fail ⟨.modelError, none, node.span, kindText node ++ " is not an expression"⟩
  | s :: up, slot =>
    let T := k.program.typing
    let c : Cursor := ⟨node, s :: up⟩
    let parent := s.parent
    let i := c.rank?.getD 0
    let src := valueType? T node slot
    if !node.kind.isExpr then .fail ⟨.modelError, none, node.span, kindText node ++ " is not an expression"⟩
    else match contextOf T c with
      | .assignValue => k.assignedValue parent i slot src
      | .assignTarget => k.assignedTarget parent i node.facts.type
      | .specValue => k.specValue parent i slot src
      | .specName => k.specName parent i node.facts.type
      | .fieldName => .one ⟨.fieldName, parent.span, definedVars T (parent.childrenAt .names) (some i), false⟩
      | .returned => k.returned c parent node i slot src
      | .argument =>
        match calleeOf T parent with
        | .builtin name => if name = "append" then k.dependentsFrom parent up none else .nothing
        | .func fn => k.passedTo parent node fn i slot src
        | .other => .fail (functionValueFailure parent)
      | .conversion =>
        if parent.facts.type.any T.isInterface && !isNilLiteral T node then .nothing
        else .fail (conversionFailure parent)
      | .transparent | .container =>
        k.dependentsFrom parent up (if parent.kind = .parenExpr then slot else none)
      | .element =>
        match structFields? T parent with
        | none => k.dependentsFrom parent up none
        | some fields =>
          match fields[i]? with
          | none => .fail ⟨.modelError, none, parent.span, "struct literal arity"⟩
          | some field => k.stored .element node.span src (T.varType? field) [field]
      | .keyedValue =>
        match up with
        | [] => .nothing
        | s' :: up' =>
          if isStructLiteral T s'.parent then k.keyedField parent src else k.dependentsFrom s'.parent up' none
      | .fieldKey => (parent.child? .value).elim .nothing fun e => k.source .fieldKey e none node.facts.type
      | .sendValue => k.sent parent src
      | .sendChan => (parent.child? .value).elim .nothing fun e => k.source .sendChan e none none
      | .rangeVar =>
        match parent.child? .x with
        | none => .nothing
        | some x => if x.facts.type.any T.isContainer then k.source .rangeVar x none none else .nothing
      | .rangeOver => k.ranged parent
      | .comparison | .use | .declaration => .nothing
      | .unknown | .call | .unlisted _ => .fail ⟨.unclassifiable, none, node.span, c.edge?.elim "" Edge.name⟩

/-- What must share the type of the expression at a cursor. -/
def dependents (k : Classifier) (c : Cursor) (slot : Option Nat) : Findings := k.dependentsFrom c.node c.ancestors slot

end Classifier

end NilFlow
