import NilFlow.Program.SourceFile
import NilFlow.Text.DocLink

/-!
# The occurrence index

Where the variables of a program occur: as identifiers, as values returned or passed as arguments, as results of calls
and in doc links.

* `MatchKind`, `Match`: one occurrence of a variable.
* `Package`: a package in scope, with its files.
* `matchesAt`: the occurrences that a single node gives rise to.
* `Index`: all occurrences of some packages, the functions they declare, and the owners of parameters and results.
-/

namespace NilFlow

/-! ## Occurrences -/

/-- How a variable occurs. -/
inductive MatchKind where
  /-- The declaring identifier. -/
  | definition
  /-- An identifier that uses the variable. -/
  | use
  /-- An expression returned into a result. -/
  | returned
  /-- The function identifier of a call that produces a result. -/
  | call
  /-- A function that owns the parameter or result, used as a value. -/
  | funcValue
  /-- An argument passed to a parameter. -/
  | argument
  /-- A link in a doc comment. -/
  | docLink
deriving DecidableEq, Repr, Inhabited

namespace MatchKind

/-- The names of the kinds, in the order of their numbers. -/
def names : Enumeration := ⟨"MatchKind", ["def", "use", "return", "call", "funcvalue", "argument", "doclink"]⟩

def number : MatchKind → Nat
  | definition => 0
  | use => 1
  | returned => 2
  | call => 3
  | funcValue => 4
  | argument => 5
  | docLink => 6

def name (k : MatchKind) : String := names.name k.number

end MatchKind

/-- How far an occurrence can be trusted. -/
inductive Accuracy where
  /-- Resolved through type information. -/
  | exact
  /-- Found by its text. -/
  | inexact
deriving DecidableEq, Repr, Inhabited

namespace Accuracy

def number : Accuracy → Nat
  | exact => 0
  | inexact => 1

end Accuracy

/-- One occurrence of a variable. The slot is a result number, or the component of a tuple passed as argument; doc links
have no node. -/
structure Match where
  var : Variable
  kind : MatchKind
  cursor : Option Cursor
  slot : Option Nat
  span : Span
  accuracy : Accuracy
  inDocComment : Bool

structure Package where
  ref : PackageRef
  files : List SourceFile
  readOnly : Bool

namespace Package

def roots (p : Package) : List Cursor := (p.files.filterMap (·.tree)).map Cursor.root

/-- The cursors of all nodes, file by file in traversal order. -/
def cursors (p : Package) : List Cursor := p.roots.flatMap (·.preorder)

end Package

/-! ## Signatures -/

namespace Signature

/-- The parameter that argument `j` is passed to, where no number means the receiver: the variadic parameter takes every
further argument. -/
def paramAt (s : Signature) : Option Nat → Option ObjectId
  | none => s.receiver
  | some j => if s.variadic && s.params.length ≤ j + 1 then s.params.getLast? else s.params[j]?

end Signature

/-- The place of argument `j` among the parameters: a method expression takes the receiver as its first argument. -/
def argumentPlace (methodExpr : Bool) (j : Nat) : Option Nat :=
  if methodExpr then (match j with | 0 => none | k + 1 => some k) else some j

def isMethodExprCall (call : Node) : Bool :=
  match (call.child? .callee).map Node.unparen with
  | some f => f.kind = .selectorExpr && (f.facts.selection).any (·.kind = .methodExpr)
  | none => false

/-- Whether the edge from a function identifier leads up towards its call. -/
def calleeEdge (e : Edge) : Bool :=
  match e.parent, e.field with
  | .selectorExpr, .sel | .indexExpr, .x | .indexListExpr, .x | .parenExpr, .x => true
  | _, _ => false

/-- The call around a node whose callee it is, through selectors, instantiations and parentheses. -/
def calledFrom (node : Node) : List Step → Option Cursor
  | [] => none
  | s :: up =>
    match node.field with
    | none => none
    | some f =>
      if calleeEdge ⟨s.parent.kind, f⟩ then calledFrom s.parent up
      else if s.parent.kind = .callExpr && f = .callee then some ⟨s.parent, up⟩
      else none

def callOf? (c : Cursor) : Option Cursor := calledFrom c.node c.ancestors

/-! ## Occurrences at a node -/

namespace Match

/-- The occurrence of a variable object at a node. -/
def at? (T : Typing) (v : ObjectId) (kind : MatchKind) (c : Cursor) (slot : Option Nat) : Option Match :=
  (T.variableOf? v).map fun v => ⟨v, kind, some c, slot, c.node.span, .exact, false⟩

end Match

/-- The arguments of a call, as occurrences of the parameters they are passed to. -/
def argumentMatches (T : Typing) (call : Cursor) (sig : Signature) : List Match :=
  let place := argumentPlace (isMethodExprCall call.node)
  let args := call.childrenAt .args
  let passed (j : Nat) (arg : Cursor) (slot : Option Nat) : Option Match :=
    (sig.paramAt (place j)).bind fun p => Match.at? T p .argument arg slot
  let single := match args with
    | [arg] => (arg.node.facts.type.bind T.tuple?).map fun vars => (arg, vars.length)
    | _ => none
  match single with
  | some (arg, n) => (List.range n).filterMap fun j => passed j arg (some j)
  | none => args.zipIdx.filterMap fun (arg, j) => passed j arg none

/-- A use of a function, as occurrences of its results, and of its parameters through arguments or as a value. -/
def functionMatches (T : Typing) (c : Cursor) (fn : ObjectId) : List Match :=
  match T.signature? (T.originFunc fn) with
  | none => []
  | some sig =>
    match callOf? c with
    | some call =>
      (sig.results.zipIdx.filterMap fun (r, i) => Match.at? T r .call c (some i)) ++ argumentMatches T call sig
    | none =>
      (sig.results.zipIdx.filterMap fun (r, i) => Match.at? T r .funcValue c (some i)) ++
        sig.params.filterMap fun p => Match.at? T p .funcValue c none

def declaredFunc? (T : Typing) (n : Node) : Option ObjectId :=
  match n.kind, n.facts.declares with
  | .ident, some o =>
    match T.objectForm? o with
    | some (.func _ _) => some o
    | _ => none
  | _, _ => none

/-- An identifier, as an occurrence of the variable or function it names. A declared function is no occurrence. -/
def identMatches (T : Typing) (c : Cursor) : List Match :=
  let kind : MatchKind := if c.node.facts.declares.isSome then .definition else .use
  match c.node.object? with
  | none => []
  | some o =>
    match T.objectForm? o with
    | some (.var _ _ _ _) => (Match.at? T o kind c none).toList
    | some (.func _ _) => if kind = .definition then [] else functionMatches T c o
    | _ => []

def enclosingSignature? (T : Typing) (c : Cursor) : Option Signature :=
  match c.enclosing? with
  | none => none
  | some fn =>
    if fn.kind = .funcDecl then
      ((fn.child? .name).bind (·.facts.declares)).bind T.signature?
    else match fn.facts.type.map T.form with
      | some (.signature s) => some s
      | _ => none

/-- A return statement, as occurrences of the results it returns into: one value each, or one call for all. -/
def returnMatches (T : Typing) (c : Cursor) : List Match :=
  match enclosingSignature? T c with
  | none => []
  | some sig =>
    let values := c.childrenAt .results
    if values.length = 0 then []
    else if values.length = sig.results.length then
      (values.zip sig.results).zipIdx.filterMap fun ((value, r), i) => Match.at? T r .returned value (some i)
    else match values with
      | [value] => sig.results.zipIdx.filterMap fun (r, i) => Match.at? T r .returned value (some i)
      | _ => []

/-- The variable object that a doc link of a package names: a package variable, or a member of a type. -/
def linkTarget? (T : Typing) (package : Nat) (link : DocLink) : Option ObjectId :=
  match T.lookup? package link.name with
  | none => none
  | some o =>
    match T.objectForm? o with
    | some (.var _ _ _ _) => some o
    | some (.typeName _) => link.member.bind (T.lookupMember? package link.name)
    | _ => none

/-- A doc comment of a declaration, as occurrences of the variables its links name. -/
def docMatches (T : Typing) (package : Nat) (c : Cursor) : List Match :=
  match c.edge? with
  | none | some ⟨.file, .doc⟩ => []
  | some _ =>
    (c.node.childrenAt .list).flatMap fun comment =>
      (docLinks comment.facts.text).filterMap fun link =>
        ((linkTarget? T package link).bind T.variableOf?).map fun v =>
          ⟨v, .docLink, none, none, ⟨comment.span.start + link.start, comment.span.start + link.stop⟩, .exact, true⟩

def matchesAt (T : Typing) (package : Nat) (c : Cursor) : List Match :=
  match c.node.kind with
  | .ident => identMatches T c
  | .returnStmt => returnMatches T c
  | .commentGroup => docMatches T package c
  | _ => []

/-! ## The index -/

/-- The function that a parameter or result belongs to, and its place there; a receiver has no place. -/
structure Owner where
  func : ObjectId
  place : Option Nat
deriving DecidableEq, Repr

/-- The occurrences in some packages, in order, the functions declared there, and who owns which variable. -/
structure Index where
  occurrences : List Match
  functions : List ObjectId
  owners : List (Variable × Owner)

namespace Index

def ownedBy (T : Typing) (fn : ObjectId) : List (Variable × Owner) :=
  match T.signature? fn with
  | none => []
  | some sig =>
    (sig.receiver.bind T.variableOf?).toList.map (fun v => (v, ⟨fn, none⟩)) ++
      sig.params.zipIdx.filterMap (fun (p, i) => (T.variableOf? p).map fun v => (v, ⟨fn, some i⟩)) ++
      sig.results.zipIdx.filterMap (fun (r, i) => (T.variableOf? r).map fun v => (v, ⟨fn, some i⟩))

def ofPackages (T : Typing) (packages : List Package) : Index :=
  let functions := packages.flatMap fun p => p.cursors.filterMap fun c => declaredFunc? T c.node
  { occurrences := packages.flatMap fun p => p.cursors.flatMap (matchesAt T p.ref.number)
    functions := functions
    owners := functions.flatMap (ownedBy T) }

def occurrencesOf (ix : Index) (v : Variable) : List Match := ix.occurrences.filter (·.var = v)

def owner? (ix : Index) (v : Variable) : Option Owner :=
  (ix.owners.reverse.find? (·.1 = v)).map (·.2)

/-- The methods of a name, in the order of their declarations. -/
def methods (T : Typing) (ix : Index) (name : String) : List ObjectId :=
  ix.functions.filter fun f => T.nameOf f = name && (T.signature? f).any (·.receiver.isSome)

end Index

end NilFlow
