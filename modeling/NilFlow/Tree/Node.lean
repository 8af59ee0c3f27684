import NilFlow.Tree.Kind
import NilFlow.Typing

/-!
# Syntax trees

A syntax tree with the facts that type checking recorded at its nodes.

* `Facts`: what is known at a node: names, objects, types, operators.
* `Node`: a node with its children in traversal order.
* `Node.child?`, `Node.childrenAt`: the children held by a field.
* `Node.unparen`: an expression without its parentheses.
-/

namespace NilFlow

/-- What a selector selects: a field, a method of a value or a method of a type. -/
inductive SelectionKind where
  | field
  | method
  | methodExpr
deriving DecidableEq, Repr, Inhabited

structure Selection where
  kind : SelectionKind
  object : ObjectId
deriving DecidableEq, Repr, Inhabited

/-- What is known at a node. -/
structure Facts where
  /-- The name of an identifier. -/
  name : String := ""
  /-- The object that an identifier declares. -/
  declares : Option ObjectId := none
  /-- The object that an identifier uses. -/
  uses : Option ObjectId := none
  /-- The type of an expression. -/
  type : Option TypeId := none
  /-- Whether an expression denotes a type. -/
  isType : Bool := false
  /-- What a selector selects. -/
  selection : Option Selection := none
  /-- Whether the last argument of a call is spread over the variadic parameter. -/
  ellipsis : Bool := false
  /-- The operator of a statement or expression. -/
  operator : String := ""
  /-- The text of a comment, or of the type of a conversion. -/
  text : String := ""
deriving DecidableEq, Repr, Inhabited

/-- The content of a node: the field of the parent that holds it, its kind, its source and what is known of it. -/
structure NodeLabel where
  field : Option FieldName
  kind : NodeKind
  span : Span
  facts : Facts
deriving DecidableEq, Repr, Inhabited

inductive Node where
  | mk (label : NodeLabel) (children : List Node)
deriving Inhabited

namespace Node

def label : Node → NodeLabel
  | mk l _ => l

def children : Node → List Node
  | mk _ cs => cs

def field (n : Node) : Option FieldName := n.label.field

def kind (n : Node) : NodeKind := n.label.kind

def span (n : Node) : Span := n.label.span

def facts (n : Node) : Facts := n.label.facts

def childrenAt (n : Node) (f : FieldName) : List Node := n.children.filter fun c => c.field = some f

def child? (n : Node) (f : FieldName) : Option Node := n.children.find? fun c => c.field = some f

def childType? (n : Node) (f : FieldName) : Option TypeId := (n.child? f).bind (·.facts.type)

/-- The object an identifier declares or else uses. -/
def object? (n : Node) : Option ObjectId := n.facts.declares.or n.facts.uses

mutual

/-- An expression without the parentheses around it. -/
def unparen : Node → Node
  | mk l cs => match l.kind with
    | .parenExpr => unparenIn (mk l cs) cs
    | _ => mk l cs

/-- The operand among the children of a parenthesised expression, without parentheses. -/
def unparenIn (whole : Node) : List Node → Node
  | [] => whole
  | c :: cs => if c.field = some .x then unparen c else unparenIn whole cs

end

end Node

end NilFlow
