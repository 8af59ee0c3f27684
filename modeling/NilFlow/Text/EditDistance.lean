/-!
# Edit distance

* `editDistance`: the least number of insertions, deletions and replacements that turn one list into another.
-/

namespace NilFlow

/-- The rest of the next row of distances: `left` is the distance just found, and the row above starts with the one
above it. -/
def distancesAfter {α : Type} [DecidableEq α] (a : α) : List α → List Nat → Nat → List Nat
  | b :: bs, corner :: above :: row, left =>
    let d := if a = b then corner else min (min above left) corner + 1
    d :: distancesAfter a bs (above :: row) d
  | _, _, _ => []

/-- The distances of a list with one more element to all beginnings of another, from those without it. -/
def nextDistances {α : Type} [DecidableEq α] (bs : List α) (row : List Nat) (a : α) : List Nat :=
  let first := row.headD 0 + 1
  first :: distancesAfter a bs row first

/-- The least number of insertions, deletions and replacements that turn one list into another. -/
def editDistance {α : Type} [DecidableEq α] (as bs : List α) : Nat :=
  (as.foldl (nextDistances bs) (List.range (bs.length + 1))).getLastD 0

end NilFlow
