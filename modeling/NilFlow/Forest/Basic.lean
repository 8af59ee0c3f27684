import NilFlow.Closure
import NilFlow.Forest.UnionFind
import NilFlow.Sorting
import NilFlow.Variable

/-!
# Provenance forests

Which element's processing discovered which. A value node holds one element, and an element has at most one; a union
node groups co-equal siblings discovered together; a rediscovery is a link.

* `Forest`: nodes in the order they were made, and links.
* `Forest.add`: inserts a discovery.
* `Forest.descendants`: an element and all discovered through it.
* `Forest.trim`: the forest without some elements and all discovered through them.
* `Forest.components`: the connected sets of elements.
-/

namespace NilFlow

/-- What a node of a forest stands for. -/
inductive NodeContent (α : Type) where
  /-- An element, and whether it was only discovered implicitly. -/
  | value (var : α) (implicit : Bool)
  /-- A group of co-equal siblings. -/
  | union
deriving DecidableEq, Repr

structure ForestNode (α : Type) where
  content : NodeContent α
  parent : Option Nat
deriving DecidableEq, Repr

/-- A provenance forest: nodes numbered in order, and links between numbers. -/
structure Forest (α : Type) where
  nodes : List (ForestNode α)
  links : List (Nat × Nat)
deriving DecidableEq, Repr

namespace ForestNode

variable {α : Type}

def var? (n : ForestNode α) : Option α :=
  match n.content with
  | .value v _ => some v
  | .union => none

def isUnion (n : ForestNode α) : Bool := n.var?.isNone

end ForestNode

namespace Forest

variable {α : Type} [DecidableEq α]

def empty : Forest α := ⟨[], []⟩

/-! ## Queries -/

def ids (f : Forest α) : List Nat := List.range f.nodes.length

/-- The elements in the order of their discovery. -/
def elements (f : Forest α) : List α := f.nodes.filterMap ForestNode.var?

def size (f : Forest α) : Nat := f.elements.length

def idOf? (f : Forest α) (v : α) : Option Nat := f.nodes.findIdx? fun n => n.var? = some v

def contains (f : Forest α) (v : α) : Bool := (f.idOf? v).isSome

def nodeOf? (f : Forest α) (v : α) : Option (ForestNode α) := (f.idOf? v).bind (f.nodes[·]?)

/-- Whether an element was only discovered implicitly. -/
def implicit (f : Forest α) (v : α) : Bool :=
  match (f.nodeOf? v).map ForestNode.content with
  | some (.value _ i) => i
  | _ => false

def parentNode? (f : Forest α) (v : α) : Option (ForestNode α) := ((f.nodeOf? v).bind (·.parent)).bind (f.nodes[·]?)

/-- Whether an element was discovered as a co-equal sibling. -/
def inUnion (f : Forest α) (v : α) : Bool := (f.parentNode? v).any ForestNode.isUnion

/-- The element whose processing discovered an element, if any did: the element of the parent node, unions passed over.
The inner value is absent when that node holds no element. -/
def parent? (f : Forest α) (v : α) : Option (Option α) :=
  match f.parentNode? v with
  | none => none
  | some p => if p.isUnion then (p.parent.bind (f.nodes[·]?)).map ForestNode.var? else some p.var?

/-! ## Insertion -/

/-- The candidates without a node, each element once, as it is first given. -/
def fresh (f : Forest α) (cs : List (Candidate α)) : List (Candidate α) :=
  cs.foldl (fun acc c => if f.contains c.var || acc.any (·.var = c.var) then acc else acc ++ [c]) []

/-- The nodes of the candidates that have one, in order. -/
def known (f : Forest α) (cs : List (Candidate α)) : List Nat := cs.filterMap fun c => f.idOf? c.var

/-- The nodes, those of elements found explicitly now marked as explicit. -/
def marked (f : Forest α) (cs : List (Candidate α)) : List (ForestNode α) :=
  f.nodes.map fun n =>
    match n.content with
    | .value v i => { n with content := .value v (i && !cs.any fun c => c.var = v && !c.implicit) }
    | .union => n

/-- Whether new candidates are gathered under a union of their own. -/
def gathers (d : Discovery α) (parent : Option Nat) (fresh : List (Candidate α)) : Bool :=
  1 < fresh.length && (d.joint || parent.isNone)

/-- Inserts a discovery made while processing `source`. New elements become children of its node, below a union when
they are co-equal or have no parent; known ones are linked to the node that the discovery hangs from. -/
def add (f : Forest α) (source : Option α) (d : Discovery α) : Forest α :=
  let parent := source.bind f.idOf?
  let fresh := f.fresh d.candidates
  let known := f.known d.candidates
  let old := f.marked d.candidates
  let union := gathers d parent fresh
  let top := if union then [⟨.union, parent⟩] else []
  let anchor := if union then some old.length else parent
  let first := old.length + top.length
  let values := fresh.map fun c => ⟨.value c.var c.implicit, anchor⟩
  let hub := (anchor.or (if fresh.isEmpty then none else some first)).or known.head?
  let links := match hub with
    | none => []
    | some h => (known.filter (· ≠ h)).map (h, ·)
  ⟨old ++ top ++ values, f.links ++ links⟩

def created (f : Forest α) (d : Discovery α) : List α := (f.fresh d.candidates).map (·.var)

/-! ## Reachability -/

/-- Whether node `b` is a child of node `a`, or linked from it. -/
def leadsTo (f : Forest α) (a b : Nat) : Bool :=
  (f.nodes[b]?).any (·.parent = some a) || f.links.contains (a, b)

/-- The nodes reachable from some nodes over children and links. -/
def reach (f : Forest α) (start : List Nat) : List Nat := closure f.ids f.leadsTo start

/-- The elements of some nodes, in the order of their discovery. -/
def elementsAt (f : Forest α) (ids : List Nat) : List α :=
  f.nodes.zipIdx.filterMap fun (n, i) => if ids.contains i then n.var? else none

/-- An element and everything discovered through it, in the order of discovery. -/
def descendants (f : Forest α) (v : α) : List α :=
  match f.idOf? v with
  | none => []
  | some id => f.elementsAt (f.reach [id])

/-! ## Trimming -/

/-- The nodes that survive when some are dead, from a tail of the numbered nodes: values that are not dead, and unions
with a surviving child. -/
def survivors (dead : List Nat) : List (ForestNode α × Nat) → List (ForestNode α × Nat)
  | [] => []
  | (n, i) :: rest =>
    let later := survivors dead rest
    if dead.contains i then later
    else if n.isUnion && !later.any (fun c => c.1.parent = some i) then later
    else (n, i) :: later

/-- The forest of some surviving nodes, numbered anew in their order. -/
def restrict (f : Forest α) (alive : List (ForestNode α × Nat)) : Forest α :=
  let renumber (id : Nat) : Option Nat := (alive.map (·.2)).idxOf? id
  { nodes := alive.map fun (n, _) => { n with parent := n.parent.bind renumber }
    links := f.links.filterMap fun l =>
      match renumber l.1, renumber l.2 with
      | some a, some b => some (a, b)
      | _, _ => none }

/-- The nodes that survive without some elements. -/
def surviving (f : Forest α) (removed : List α) : List (ForestNode α × Nat) :=
  survivors (f.reach (removed.filterMap f.idOf?).eraseDups) f.nodes.zipIdx

/-- The forest without some elements and everything discovered through them. -/
def trim (f : Forest α) (removed : List α) : Forest α := f.restrict (f.surviving removed)

/-- The elements that trimming removes, in the order of their discovery. -/
def trimmed (f : Forest α) (removed : List α) : List α :=
  let alive := (f.surviving removed).map (·.2)
  f.nodes.zipIdx.filterMap fun (n, i) => if alive.contains i then none else n.var?

/-! ## Components -/

/-- The pairs of nodes that belong together: children with parents, and links. -/
def joins (f : Forest α) : List (Nat × Nat) :=
  (f.nodes.zipIdx.filterMap fun (n, i) => n.parent.map (i, ·)) ++ f.links

/-- The connected sets of elements, in the order in which they first appear. -/
def rawComponents (f : Forest α) : List (List α) :=
  UnionFind.classes (f.nodes.zipIdx.filterMap fun (n, i) => n.var?.map (i, ·))
    ((UnionFind.singletons f.nodes.length).unionAll f.joins) []

/-- Whether a component does not come after another, by their first elements. -/
def headLe (le : α → α → Bool) (a b : List α) : Bool :=
  match a, b with
  | x :: _, y :: _ => le x y
  | [], _ => true
  | _, [] => false

/-- The connected sets of elements, each in order, and themselves in the order of their first elements. -/
def components (f : Forest α) (le : α → α → Bool) : List (List α) :=
  sortedBy (headLe le) (f.rawComponents.map (sortedBy le))

end Forest

end NilFlow
