import Stopwatch.Sorting.Blocks

/-!
# Sorting by pattern

A quicksort that watches for patterns. A stretch of at most twelve elements is sorted by insertion.
The pivot of a longer one is a median of a few elements; if none of those was out of order the
stretch may be sorted already, which is tried first, and if all were it is turned round. A stretch
whose parts come out very unequal is shaken before it is divided again, and after too many of those
the rest is sorted by a heap.

It is not stable: where elements compare equal, their order in the result is the one that these
steps leave. Every step swaps two elements.
-/

namespace Stopwatch

namespace Sorting

variable {α : Type}

/-- Moves the element at an index down to its place among those from `a` on. -/
def sink (before : α → α → Bool) (a : Nat) : Array α → Nat → Array α
  | xs, 0 => xs
  | xs, j + 1 =>
    if a ≤ j && comesBefore before xs (j + 1) j then sink before a (xs.swapIfInBounds (j + 1) j) j
    else xs

/-- Sorts the stretch from `a` to below `b` by insertion. -/
def insertion (before : α → α → Bool) (xs : Array α) (a b : Nat) : Array α :=
  (List.range' (a + 1) (b - (a + 1))).foldl (sink before a) xs

/-! ## Heaps -/

/-- Moves an element of a heap of `size` elements that starts at `a` below its greater children. -/
def siftDown (before : α → α → Bool) (a size : Nat) (xs : Array α) (root : Nat) : Array α :=
  let child := 2 * root + 1
  if size ≤ child then xs
  else
    let other := decide (child + 1 < size) && comesBefore before xs (a + child) (a + child + 1)
    let child := if other then child + 1 else child
    if comesBefore before xs (a + root) (a + child) then
      siftDown before a size (xs.swapIfInBounds (a + root) (a + child)) child
    else xs
termination_by size - root
decreasing_by split <;> omega

/-- Sorts the stretch from `a` to below `b` by a heap. -/
def byHeap (before : α → α → Bool) (xs : Array α) (a b : Nat) : Array α :=
  let size := b - a
  let heap := (List.range ((size - 1) / 2 + 1)).reverse.foldl (siftDown before a size) xs
  (List.range size).reverse.foldl
    (fun xs i => siftDown before a i (xs.swapIfInBounds a (a + i)) 0) heap

/-! ## Pivots -/

/-- Two indices with the one whose element comes first in front, and whether they were swapped. -/
def inOrder (before : α → α → Bool) (xs : Array α) (i j swaps : Nat) : Nat × Nat × Nat :=
  if comesBefore before xs j i then (j, i, swaps + 1) else (i, j, swaps)

/-- The index of the median of three elements, and the swaps so far. -/
def median (before : α → α → Bool) (xs : Array α) (i j k swaps : Nat) : Nat × Nat :=
  let (i, j, swaps) := inOrder before xs i j swaps
  let (j, _, swaps) := inOrder before xs j k swaps
  let (_, j, swaps) := inOrder before xs i j swaps
  (j, swaps)

/-- The median of an element and its two neighbours. -/
def medianAround (before : α → α → Bool) (xs : Array α) (i swaps : Nat) : Nat × Nat :=
  median before xs (i - 1) i (i + 1) swaps

/-- The pivot of a stretch, and how many of the elements looked at were out of order. -/
def choosePivot (before : α → α → Bool) (xs : Array α) (a b : Nat) : Nat × Nat :=
  let quarter := (b - a) / 4
  let i := a + quarter
  let j := a + quarter * 2
  let k := a + quarter * 3
  if b - a < 50 then median before xs i j k 0
  else
    let (i, swaps) := medianAround before xs i 0
    let (j, swaps) := medianAround before xs j swaps
    let (k, swaps) := medianAround before xs k swaps
    median before xs i j k swaps

/-- The number of swaps when every element looked at was out of order. -/
def allSwaps : Nat := 12

/-- Turns round the elements from index `i` to `j`. -/
def turnRound (xs : Array α) (i j : Nat) : Array α :=
  if i < j then turnRound (xs.swapIfInBounds i j) (i + 1) (j - 1) else xs
termination_by j - i

/-- The next number of a sequence that looks random. -/
def scramble (n : UInt64) : UInt64 :=
  let n := n ^^^ (n <<< 13)
  let n := n ^^^ (n >>> 7)
  n ^^^ (n <<< 17)

/-- Swaps three elements in the middle of a stretch with others of it. -/
def shake (xs : Array α) (a b : Nat) : Array α :=
  let length := b - a
  let middle := a + length / 4 * 2 - 2
  let step (s : Array α × UInt64) (i : Nat) : Array α × UInt64 :=
    let random := scramble s.2
    let other := random.toNat % (1 <<< (length.log2 + 1))
    let other := if length ≤ other then other - length else other
    (s.1.swapIfInBounds (middle + i) (a + other), random)
  ((List.range 3).foldl step (xs, UInt64.ofNat length)).1

/-! ## Parts -/

/-- The first index from `i` to `j` at which `p` fails, or `j + 1`. -/
def scanUp (p : Nat → Bool) (i j : Nat) : Nat :=
  if i ≤ j && p i then scanUp p (i + 1) j else i
termination_by j + 1 - i
decreasing_by simp at *; omega

theorem le_scanUp (p : Nat → Bool) (i j : Nat) : i ≤ scanUp p i j := by
  fun_induction scanUp p i j with
  | case1 i _ ih => omega
  | case2 => exact Nat.le_refl _

/-- The last index from `j` down to `i` at which `p` fails, or the one below `i`. -/
def scanDown (p : Nat → Bool) (i : Nat) : Nat → Nat
  | 0 => 0
  | j + 1 => if i ≤ j + 1 && p (j + 1) then scanDown p i j else j + 1

theorem scanDown_le (p : Nat → Bool) (i j : Nat) : scanDown p i j ≤ j := by
  fun_induction scanDown p i j with
  | case1 => exact Nat.le_refl _
  | case2 j _ ih => omega
  | case3 => exact Nat.le_refl _

/-- A stretch in two parts. -/
structure Parts (α : Type) where
  elements : Array α
  /-- The last index of the first part. -/
  last : Nat
  /-- True if no elements were swapped. -/
  untouched : Bool

/-- Divides the elements from `i` to `j` into those of which `low` holds and the others, by swapping
the first that belongs behind with the last that belongs in front. -/
def divide (low : Array α → Nat → Bool) (xs : Array α) (i j : Nat) (untouched : Bool) : Parts α :=
  let up := scanUp (low xs) i j
  let down := scanDown (fun k => !low xs k) up j
  if h : up < down then divide low (xs.swapIfInBounds up down) (up + 1) (down - 1) false
  else ⟨xs, up - 1, untouched⟩
termination_by j + 1 - i
decreasing_by
  have h₁ : i ≤ up := le_scanUp (low xs) i j
  have h₂ : down ≤ j := scanDown_le (fun k => !low xs k) up j
  show down - 1 + 1 - (up + 1) < j + 1 - i
  omega

/-- Divides a stretch into the elements that come before the pivot and the others. The pivot ends up
between the two, at the index that is given back. -/
def partition (before : α → α → Bool) (xs : Array α) (a b pivot : Nat) : Parts α :=
  let xs := xs.swapIfInBounds a pivot
  let parts := divide (fun xs k => comesBefore before xs k a) xs (a + 1) (b - 1) true
  { parts with elements := parts.elements.swapIfInBounds parts.last a }

/-- Divides a stretch without elements that come before the pivot into the elements equal to it and
the others. -/
def partitionEqual (before : α → α → Bool) (xs : Array α) (a b pivot : Nat) : Parts α :=
  divide (fun xs k => !comesBefore before xs a k) (xs.swapIfInBounds a pivot) (a + 1) (b - 1) true

/-! ## Stretches that are nearly sorted -/

/-- Moves the element at an index up to its place among those below `b`. -/
def rise (before : α → α → Bool) (b : Nat) (xs : Array α) (j : Nat) : Array α :=
  if j < b && comesBefore before xs j (j - 1) then
    rise before b (xs.swapIfInBounds j (j - 1)) (j + 1)
  else xs
termination_by b - j
decreasing_by simp at *; omega

/-- Sorts a stretch in which at most `steps` neighbours are out of order from index `i` on, and
tells whether that was enough. A short stretch with neighbours out of order stays. -/
def settle (before : α → α → Bool) (a b : Nat) : Nat → Array α → Nat → Array α × Bool
  | 0, xs, _ => (xs, false)
  | steps + 1, xs, i =>
    let i := scanUp (fun k => !comesBefore before xs k (k - 1)) i (b - 1)
    if b ≤ i then (xs, true)
    else if b - a < 50 then (xs, false)
    else
      let xs := xs.swapIfInBounds i (i - 1)
      let xs := if 2 ≤ i - a then sink before 0 xs (i - 1) else xs
      let xs := if 2 ≤ b - i then rise before b xs (i + 1) else xs
      settle before a b steps xs i

/-! ## The whole -/

/-- Sorts the stretch from `a` to below `b`, which holds fewer than `fuel` elements. `limit` is the
number of very unequal divisions that are still allowed; `balanced` and `partitioned` tell of the
last one. -/
def sortStretch (before : α → α → Bool) : Nat → Nat → Bool → Bool → Array α → Nat → Nat → Array α
  | 0, _, _, _, xs, _, _ => xs
  | fuel + 1, limit, balanced, partitioned, xs, a, b =>
    if b - a ≤ 12 then insertion before xs a b
    else if limit == 0 then byHeap before xs a b
    else
      let (xs, limit) := if balanced then (xs, limit) else (shake xs a b, limit - 1)
      let (pivot, swaps) := choosePivot before xs a b
      let (xs, pivot, swaps) :=
        if swaps == allSwaps then (turnRound xs a (b - 1), (b - 1) - (pivot - a), 0)
        else (xs, pivot, swaps)
      let (xs, sorted) :=
        if balanced && partitioned && swaps == 0 then settle before a b 5 xs (a + 1)
        else (xs, false)
      if sorted then xs
      else if 0 < a && !comesBefore before xs (a - 1) pivot then
        let parts := partitionEqual before xs a b pivot
        sortStretch before fuel limit balanced partitioned parts.elements (parts.last + 1) b
      else
        let parts := partition before xs a b pivot
        let mid := parts.last
        if mid - a < b - mid then
          let xs := sortStretch before fuel limit true true parts.elements a mid
          sortStretch before fuel limit (decide ((b - a) / 8 ≤ mid - a))
            parts.untouched xs (mid + 1) b
        else
          let xs := sortStretch before fuel limit true true parts.elements (mid + 1) b
          sortStretch before fuel limit (decide ((b - a) / 8 ≤ b - mid)) parts.untouched xs a mid

/-- The elements in order. -/
def byPattern (before : α → α → Bool) (xs : List α) : List α :=
  (sortStretch before (xs.length + 1) (xs.length.log2 + 1) true true xs.toArray 0 xs.length).toList

end Sorting

end Stopwatch
