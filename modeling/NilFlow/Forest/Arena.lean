import NilFlow.Forest.Basic

/-!
# Forests in an arena

A provenance forest laid out for quick access: every node lists its children, a table leads from elements to their
nodes, and all references are numbers of nodes. The operations only follow references that they find, and have no result
when one of them leads out of the arena.

* `Arena`: nodes, table and links. A link may start at no node at all.
* `Arena.add?`, `Arena.parent?`: inserts a discovery; the element whose processing discovered another.
* `Arena.reach?`: marks the nodes reachable from some nodes, in breadth-first order.
* `Arena.trim?`: the arena without some elements and everything discovered through them.
* `Arena.ofHistory?`: what insertions and trims make of the empty arena.
* `Arena.components?`: the connected sets of elements, by union-find without unchecked references.
-/

namespace NilFlow

/-- A node with the number of its parent and the numbers of its children. -/
structure ArenaNode (α : Type) where
  content : NodeContent α
  parent : Option Nat
  children : List Nat
deriving DecidableEq, Repr

/-- A forest as numbered nodes, with the node of each element, and links. -/
structure Arena (α : Type) where
  nodes : List (ArenaNode α)
  table : List (α × Nat)
  links : List (Option Nat × Nat)
deriving DecidableEq, Repr

namespace ArenaNode

variable {α : Type}

def var? (n : ArenaNode α) : Option α :=
  match n.content with
  | .value v _ => some v
  | .union => none

/-- The node with an element marked as found explicitly. -/
def explicit (n : ArenaNode α) : ArenaNode α :=
  match n.content with
  | .value v _ => { n with content := .value v false }
  | .union => n

def adopt (n : ArenaNode α) (child : Nat) : ArenaNode α := { n with children := n.children ++ [child] }

end ArenaNode

/-- The list with one entry replaced, if there is one of that number. -/
def put? {β : Type} (l : List β) (i : Nat) (b : β) : Option (List β) := if i < l.length then some (l.set i b) else none

namespace Arena

variable {α : Type} [DecidableEq α]

def empty : Arena α := ⟨[], [], []⟩

def idOf? (a : Arena α) (v : α) : Option Nat := a.table.lookup v

/-- The arena with the node of an element entered into the table. -/
def enter (a : Arena α) (v : α) (id : Nat) : Arena α := { a with table := a.table.filter (·.1 ≠ v) ++ [(v, id)] }

def change? (a : Arena α) (i : Nat) (g : ArenaNode α → ArenaNode α) : Option (Arena α) :=
  if i < a.nodes.length then some { a with nodes := a.nodes.modify i g } else none

/-! ## Insertion -/

/-- Appends a node, as the last child of its parent. -/
def push? (a : Arena α) (content : NodeContent α) (parent : Option Nat) : Option (Arena α) :=
  let grown := { a with nodes := a.nodes ++ [⟨content, parent, []⟩] }
  match parent with
  | none => some grown
  | some p => grown.change? p (·.adopt a.nodes.length)

def place? (a : Arena α) (parent : Option Nat) (c : Candidate α) : Option (Arena α) :=
  (a.push? (.value c.var c.implicit) parent).map (·.enter c.var a.nodes.length)

def append? (a : Arena α) (content : NodeContent α) (parent : Option Nat) : Option (Arena α) :=
  match content with
  | .value v implicit => a.place? parent ⟨v, implicit⟩
  | .union => a.push? .union parent

/-- Sorts candidates into new ones, each element once, and the nodes of known ones. Known elements found explicitly are
marked so. -/
def classify? (a : Arena α) (fresh : List (Candidate α)) (known : List Nat) :
    List (Candidate α) → Option (Arena α × List (Candidate α) × List Nat)
  | [] => some (a, fresh, known)
  | c :: cs =>
    match a.idOf? c.var with
    | some id => do
      let a ← if c.implicit then some a else a.change? id (·.explicit)
      a.classify? fresh (known ++ [id]) cs
    | none =>
      if fresh.any (·.var = c.var) then a.classify? fresh known cs else a.classify? (fresh ++ [c]) known cs

/-- Appends the nodes of new elements, below a union of their own if they are gathered, and names what they hang
from. -/
def grow? (a : Arena α) (parent : Option Nat) (gathered : Bool) (fresh : List (Candidate α)) :
    Option (Arena α × Option Nat) := do
  let anchor := if gathered then some a.nodes.length else parent
  let a ← if gathered then a.push? .union parent else some a
  let a ← fresh.foldlM (·.place? anchor ·) a
  some (a, anchor)

/-- What known candidates are linked from: the anchor of the new ones, else the first new one, else the first known
one. -/
def hub? (a : Arena α) (anchor : Option Nat) (fresh : List (Candidate α)) (known : List Nat) : Option Nat :=
  match anchor, fresh with
  | some h, _ => some h
  | none, c :: _ => a.idOf? c.var
  | none, [] => known.head?

/-- Links nodes, other than the hub itself, from the hub. -/
def link (a : Arena α) (hub : Option Nat) (known : List Nat) : Arena α :=
  { a with links := a.links ++ (known.filter (some · ≠ hub)).map (hub, ·) }

def add? (a : Arena α) (source : Option α) (d : Discovery α) : Option (Arena α) := do
  let parent := source.bind a.idOf?
  let (a, fresh, known) ← a.classify? [] [] d.candidates
  let (a, anchor) ← a.grow? parent (Forest.gathers d parent fresh) fresh
  some (a.link (a.hub? anchor fresh known) known)

/-- Inserts discoveries made while processing `source`, or seeds. -/
def addAll? (a : Arena α) (source : Option α) (ds : List (Discovery α)) : Option (Arena α) :=
  ds.foldlM (·.add? source ·) a

/-! ## Parents -/

/-- The node that an element hangs from, unions passed over. -/
def above? (a : Arena α) (n : ArenaNode α) : Option (Option Nat) :=
  match n.parent with
  | none => some none
  | some p => (a.nodes[p]?).map fun m => if m.var?.isNone then m.parent else some p

/-- The element whose processing discovered an element, if any did. The innermost value is absent when the node found
holds no element. -/
def parent? (a : Arena α) (v : α) : Option (Option (Option α)) :=
  match a.idOf? v with
  | none => some none
  | some id => do
    let n ← a.nodes[id]?
    match ← a.above? n with
    | none => some none
    | some p => (a.nodes[p]?).map fun m => some m.var?

/-! ## Reachability -/

/-- Lists the target of a link at its source. -/
def enlist? (out : List (List Nat)) (l : Option Nat × Nat) : Option (List (List Nat)) := do
  let i ← l.1
  let ids ← out[i]?
  put? out i (ids ++ [l.2])

/-- The nodes that each node is linked to. -/
def targets? (a : Arena α) : Option (List (List Nat)) := a.links.foldlM enlist? (List.replicate a.nodes.length [])

/-- Marks nodes, and queues those that were not marked. -/
def enqueue? (queue : List Nat) (marks : List Bool) : List Nat → Option (List Nat × List Bool)
  | [] => some (queue, marks)
  | i :: ids =>
    match marks[i]? with
    | none => none
    | some true => enqueue? queue marks ids
    | some false => enqueue? (queue ++ [i]) (marks.set i true) ids

/-- Every node that is queued was not marked before. -/
theorem length_add_count_enqueue? :
    ∀ (ids queue : List Nat) (marks : List Bool) {queue' : List Nat} {marks' : List Bool},
    enqueue? queue marks ids = some (queue', marks') →
      queue'.length + marks'.count false = queue.length + marks.count false
  | [], _, _, _, _, h => by
    cases h
    rfl
  | i :: ids, queue, marks, _, _, h => by
    unfold enqueue? at h
    split at h
    · cases h
    · exact length_add_count_enqueue? ids _ _ h
    · rename_i hi
      obtain ⟨hlt, hfalse⟩ := List.getElem?_eq_some_iff.1 hi
      have hpos : 0 < marks.count false := List.count_pos_iff.2 (List.mem_of_getElem? hi)
      rw [length_add_count_enqueue? ids _ _ h, List.count_set hlt, hfalse, List.length_append]
      simp only [List.length_singleton, beq_self_eq_true, if_true]
      have : ((true : Bool) == false) = false := rfl
      simp only [this, Bool.false_eq_true, if_false]
      omega

/-- Visits the queue in order, marking what its nodes lead to. -/
def search? (a : Arena α) (out : List (List Nat)) (queue : List Nat) (marks : List Bool) : Option (List Bool) :=
  match queue with
  | [] => some marks
  | i :: queue =>
    match a.nodes[i]?, out[i]? with
    | some n, some next =>
      match _h : enqueue? queue marks (n.children ++ next) with
      | some (queue', marks') => search? a out queue' marks'
      | none => none
    | _, _ => none
termination_by queue.length + marks.count false
decreasing_by
  have := length_add_count_enqueue? _ _ _ _h
  simp only [List.length_cons]
  omega

/-- Marks the nodes reachable from some nodes over children and links. -/
def reach? (a : Arena α) (start : List Nat) : Option (List Bool) := do
  let out ← a.targets?
  let marks ← start.foldlM (put? · · true) (List.replicate a.nodes.length false)
  a.search? out start marks

/-! ## Trimming -/

/-- Whether a node survives, once it is settled for all nodes behind it: a value that is not dead, or a union with a
surviving child. -/
def survives? (dead alive : List Bool) (i : Nat) (n : ArenaNode α) : Option Bool := do
  if ← dead[i]? then some false
  else match n.content with
    | .value .. => some true
    | .union => n.children.anyM (alive[·]?)

/-- Settles which of the first nodes survive, from the last to the first. -/
def settle? (a : Arena α) (dead : List Bool) : Nat → List Bool → Option (List Bool)
  | 0, alive => some alive
  | i + 1, alive => do
    let n ← a.nodes[i]?
    let lives ← survives? dead alive i n
    let alive ← put? alive i lives
    a.settle? dead i alive

/-- What was carried over from an arena so far: the new arena, the new number of each old node that survived, and the
elements of the others. -/
structure Carried (α : Type) where
  arena : Arena α
  numbers : List (Option Nat)
  removed : List α

/-- The new number of a node's parent. There is none if the parent was not carried over. -/
def Carried.parent? (s : Carried α) : Option Nat → Option (Option Nat)
  | none => some none
  | some p => s.numbers[p]?

def Carried.node? (alive : List Bool) (s : Carried α) (n : ArenaNode α) : Option (Carried α) := do
  if ← alive[s.numbers.length]? then
    let arena ← s.arena.append? n.content (← s.parent? n.parent)
    some ⟨arena, s.numbers ++ [some s.arena.nodes.length], s.removed⟩
  else
    some ⟨s.arena, s.numbers ++ [none], s.removed ++ n.var?.toList⟩

def Carried.link? (s : Carried α) (l : Option Nat × Nat) : Option (Carried α) := do
  let i ← l.1
  match ← s.numbers[i]?, ← s.numbers[l.2]? with
  | some x, some y => some { s with arena := { s.arena with links := s.arena.links ++ [(some x, y)] } }
  | _, _ => some s

/-- The arena without some elements and everything discovered through them, and the elements removed. -/
def trim? (a : Arena α) (removed : List α) : Option (Arena α × List α) := do
  let dead ← a.reach? ((removed.eraseDups.filterMap a.idOf?).mergeSort)
  let alive ← a.settle? dead a.nodes.length (List.replicate a.nodes.length false)
  let nodes ← a.nodes.foldlM (Carried.node? alive) ⟨empty, [], []⟩
  let carried ← a.links.foldlM Carried.link? nodes
  some (carried.arena, carried.removed)

/-- A new arena after some insertions, and then trimmed some times. -/
def ofHistory? (calls : List (Option α × List (Discovery α))) (trims : List (List α)) : Option (Arena α) := do
  let a ← calls.foldlM (fun a c => a.addAll? c.1 c.2) empty
  trims.foldlM (fun a nr => (a.trim? nr).map (·.1)) a

end Arena

/-! ## Components -/

namespace UnionFind

/-- Climbs like `climb`, over parents that are there. -/
def climb? : (hops : Nat) → UnionFind → Nat → Option (Nat × UnionFind)
  | 0, u, x => some (x, u)
  | hops + 1, u, x => do
    let parent ← u.parent[x]?
    if parent = x then some (x, u)
    else
      let grand ← u.parent[parent]?
      climb? hops { u with parent := u.parent.setIfInBounds x grand } grand

def find? (u : UnionFind) (x : Nat) : Option (Nat × UnionFind) :=
  if x < u.parent.size then climb? u.parent.size u x else none

def union? (u : UnionFind) (a b : Nat) : Option UnionFind := do
  let (ra, u) ← u.find? a
  let (rb, u) ← u.find? b
  if ra = rb then some u
  else
    let rankA ← u.rank[ra]?
    let rankB ← u.rank[rb]?
    if rankA < rankB then some (u.attach ra rb)
    else if rankB < rankA then some (u.attach rb ra)
    else some { u.attach rb ra with rank := u.rank.setIfInBounds ra (rankA + 1) }

def classes? {α : Type} : List (Nat × α) → UnionFind → List (Nat × List α) → Option (List (List α))
  | [], _, groups => some (groups.map (·.2))
  | (x, a) :: rest, u, groups => do
    let (r, u) ← u.find? x
    let groups :=
      if groups.any (·.1 = r) then groups.map fun g => if g.1 = r then (g.1, g.2 ++ [a]) else g
      else groups ++ [(r, [a])]
    classes? rest u groups

end UnionFind

/-- The connected sets of elements, each in order, and themselves in the order of their first elements. -/
def Arena.components? {α : Type} (a : Arena α) (le : α → α → Bool) : Option (List (List α)) := do
  let links ← a.links.mapM fun l => l.1.map (·, l.2)
  let parents := a.nodes.zipIdx.filterMap fun (n, i) => n.parent.map (i, ·)
  let u ← (parents ++ links).foldlM (fun u p => u.union? p.1 p.2) (UnionFind.singletons a.nodes.length)
  let sets ← UnionFind.classes? (a.nodes.zipIdx.filterMap fun (n, i) => n.var?.map (i, ·)) u []
  some (sortedBy (Forest.headLe le) (sets.map (sortedBy le)))

end NilFlow
