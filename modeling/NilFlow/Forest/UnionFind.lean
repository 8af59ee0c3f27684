/-!
# Union-find

Disjoint classes of the numbers below a bound, with union by rank and path halving.

* `UnionFind.singletons`: every number in a class of its own.
* `UnionFind.find`: the representative of a class; the way to it is halved.
* `UnionFind.union`: joins two classes.
* `Connected`: the equivalence that the united pairs generate.
-/

namespace NilFlow

/-- Classes as parent pointers: a number that is its own parent represents its class. Ranks are single bytes. -/
structure UnionFind where
  parent : Array Nat
  rank : Array UInt8
deriving Repr, Inhabited

/-- Two numbers are connected when a chain of united pairs leads from one to the other. -/
inductive Connected (pairs : List (Nat × Nat)) : Nat → Nat → Prop where
  | refl (a : Nat) : Connected pairs a a
  | pair {a b : Nat} (h : (a, b) ∈ pairs) : Connected pairs a b
  | symm {a b : Nat} (h : Connected pairs a b) : Connected pairs b a
  | trans {a b c : Nat} (h : Connected pairs a b) (h' : Connected pairs b c) : Connected pairs a c

namespace UnionFind

/-- The numbers below `n`, each in a class of its own. -/
def singletons (n : Nat) : UnionFind := ⟨Array.range n, Array.replicate n 0⟩

/-- The parent of a number; a number outside the bound is its own parent. -/
def parentOf (u : UnionFind) (x : Nat) : Nat := u.parent.getD x x

def rankOf (u : UnionFind) (x : Nat) : UInt8 := u.rank.getD x 0

/-- Climbs at most `hops` times two parents up, pointing each number passed at its grandparent. -/
def climb : (hops : Nat) → UnionFind → Nat → Nat × UnionFind
  | 0, u, x => (x, u)
  | hops + 1, u, x =>
    if u.parentOf x = x then (x, u)
    else
      let grand := u.parentOf (u.parentOf x)
      climb hops { u with parent := u.parent.setIfInBounds x grand } grand

/-- The representative of a number's class, with the way to it halved. No way is longer than the bound. -/
def find (u : UnionFind) (x : Nat) : Nat × UnionFind := climb u.parent.size u x

/-- Points the representative `child` at the representative `top`. -/
def attach (u : UnionFind) (child top : Nat) : UnionFind := { u with parent := u.parent.setIfInBounds child top }

/-- Joins two classes: the representative of lower rank is pointed at the other; of two equal ranks, the first grows. -/
def union (u : UnionFind) (a b : Nat) : UnionFind :=
  let (ra, u) := u.find a
  let (rb, u) := u.find b
  if ra = rb then u
  else if u.rankOf ra < u.rankOf rb then u.attach ra rb
  else if u.rankOf rb < u.rankOf ra then u.attach rb ra
  else { u.attach rb ra with rank := u.rank.setIfInBounds ra (u.rankOf ra + 1) }

def unionAll (u : UnionFind) (pairs : List (Nat × Nat)) : UnionFind := pairs.foldl (fun u p => u.union p.1 p.2) u

/-- Sorts numbers with their values into classes, in the order in which the classes first appear. -/
def classes {α : Type} : List (Nat × α) → UnionFind → List (Nat × List α) → List (List α)
  | [], _, groups => groups.map (·.2)
  | (x, a) :: rest, u, groups =>
    let (r, u) := u.find x
    let groups :=
      if groups.any (·.1 = r) then groups.map fun g => if g.1 = r then (g.1, g.2 ++ [a]) else g
      else groups ++ [(r, [a])]
    classes rest u groups

end UnionFind

end NilFlow
