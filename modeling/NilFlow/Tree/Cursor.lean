import NilFlow.Tree.Node

/-!
# Cursors

A cursor is a node together with its way up to the root of the tree.

* `Cursor`: the node and the steps to its ancestors, nearest first.
* `Cursor.parent?`, `Cursor.edge?`, `Cursor.rank?`: the way up.
* `Cursor.children`, `Cursor.childAt?`, `Cursor.preorder`: the ways down.
* `Cursor.enclosing?`: the nearest function around a node.
-/

namespace NilFlow

/-- A step from a node to its parent: the parent, and the place of the node among its children. -/
structure Step where
  parent : Node
  index : Nat
deriving Inhabited

/-- A node of a tree, with the steps to its ancestors, nearest first. -/
structure Cursor where
  node : Node
  ancestors : List Step
deriving Inhabited

namespace Cursor

def root (n : Node) : Cursor := ⟨n, []⟩

/-! ## The way up -/

def parent? (c : Cursor) : Option Cursor :=
  match c.ancestors with
  | [] => none
  | s :: up => some ⟨s.parent, up⟩

def edge? (c : Cursor) : Option Edge :=
  match c.ancestors with
  | [] => none
  | s :: _ => c.node.field.map (⟨s.parent.kind, ·⟩)

/-- The place of the node in the list field that holds it; other fields give no place. -/
def rank? (c : Cursor) : Option Nat :=
  match c.ancestors with
  | [] => none
  | s :: _ =>
    if (c.edge?).any Edge.isList then
      some ((s.parent.children.take s.index).countP fun n => n.field = c.node.field)
    else none

/-- The nodes on the way up, the node itself first. -/
def nodesUp (c : Cursor) : List Node := c.node :: c.ancestors.map (·.parent)

/-- The nearest function declaration or literal around the node. -/
def enclosing? (c : Cursor) : Option Node :=
  c.nodesUp.find? fun n => n.kind = .funcDecl || n.kind = .funcLit

/-! ## The ways down -/

def children (c : Cursor) : List Cursor :=
  c.node.children.zipIdx.map fun (n, i) => ⟨n, ⟨c.node, i⟩ :: c.ancestors⟩

/-- The cursors of the children that a list field holds. -/
def childrenAt (c : Cursor) (f : FieldName) : List Cursor := c.children.filter fun d => d.node.field = some f

mutual

/-- The cursors of a node and everything below it, in traversal order. -/
def preorderFrom (up : List Step) : Node → List Cursor
  | .mk l cs => ⟨.mk l cs, up⟩ :: preorderList up (.mk l cs) 0 cs

/-- The cursors of siblings from a place on, and everything below them. -/
def preorderList (up : List Step) (parent : Node) : Nat → List Node → List Cursor
  | _, [] => []
  | i, n :: ns => preorderFrom (⟨parent, i⟩ :: up) n ++ preorderList up parent (i + 1) ns

end

/-- The cursors of the node and everything below it, in traversal order. -/
def preorder (c : Cursor) : List Cursor := preorderFrom c.ancestors c.node

end Cursor

end NilFlow
