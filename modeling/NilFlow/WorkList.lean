import NilFlow.Forest.Basic

/-!
# Work lists

The elements still to be searched, in the order of their discovery, with the forest of who discovered them. Every
element is enqueued at most once.

* `WorkList.addAll`: inserts discoveries and enqueues their new elements.
* `WorkList.next?`: takes the next element that was not evicted.
* `WorkList.removeAll`: evicts elements; their nodes stay in the forest.
* `WorkList.budget`: how many elements can still be taken, which every `next?` lowers.
-/

namespace NilFlow

/-- The frontier of a search over the elements of a forest. -/
structure WorkList (α : Type) where
  forest : Forest α
  frontier : List α
  evicted : List α
deriving Repr

namespace WorkList

variable {α : Type} [DecidableEq α]

def empty : WorkList α := ⟨.empty, [], []⟩

/-- Inserts one discovery and enqueues its new elements. -/
def add (w : WorkList α) (source : Option α) (d : Discovery α) : WorkList α :=
  { w with forest := w.forest.add source d, frontier := w.frontier ++ w.forest.created d }

/-- Inserts discoveries made while processing `source`, or seeds. -/
def addAll (w : WorkList α) (source : Option α) (ds : List (Discovery α)) : WorkList α :=
  ds.foldl (fun w d => w.add source d) w

/-- The elements that `addAll` enqueues, in order. -/
def addedBy (w : WorkList α) (source : Option α) : List (Discovery α) → List α
  | [] => []
  | d :: ds => w.forest.created d ++ (w.add source d).addedBy source ds

def skipEvicted (w : WorkList α) : WorkList α := { w with frontier := w.frontier.dropWhile (w.evicted.contains ·) }

def hasNext (w : WorkList α) : Bool := !w.skipEvicted.frontier.isEmpty

/-- The next element in the order of discovery, and the work list without it. -/
def next? (w : WorkList α) : Option (α × WorkList α) :=
  match w.skipEvicted.frontier with
  | [] => none
  | v :: rest => some (v, { w with frontier := rest })

/-- Evicts elements, now and for the future. -/
def removeAll (w : WorkList α) (vs : List α) : WorkList α :=
  { w with evicted := vs.foldl (fun ev v => if ev.contains v then ev else ev ++ [v]) w.evicted }

/-- The number of elements in the frontier, evicted ones not yet skipped included. -/
def pending (w : WorkList α) : Nat := w.frontier.length

/-- An element and everything discovered through it. -/
def subtree (w : WorkList α) (v : α) : List α := w.forest.descendants v

end WorkList

end NilFlow
