/-!
# Sorting by blocks

A stable way of sorting that asks only whether one element comes before another. Blocks of twenty
are sorted by insertion, then neighbouring blocks are merged until one is left. A merge looks for
the place where the first half of the result ends in both of its parts, by halving, and merges the
two halves apart.

Where "comes before" is a weak order, every stable way of sorting gives this result. Where it is
none, as among floats with one that is no number, the result depends on which elements are compared,
and this module fixes it.
-/

namespace Stopwatch

namespace Sorting

variable {α : Type}

/-- Puts an element behind all that it does not come before, in a list that runs backwards. -/
def insertBack (before : α → α → Bool) (x : α) : List α → List α
  | [] => [x]
  | y :: ys => if before x y then y :: insertBack before x ys else x :: y :: ys

/-- Sorts by insertion, element after element. -/
def byInsertion (before : α → α → Bool) (xs : List α) : List α :=
  (xs.foldl (fun sorted x => insertBack before x sorted) []).reverse

/-- The least index from `lo` to `hi` at which a property that holds up to there fails, by halving.
-/
def firstFailing (p : Nat → Bool) (lo hi : Nat) : Nat :=
  if lo < hi then
    let mid := (lo + hi) / 2
    if p mid then firstFailing p (mid + 1) hi else firstFailing p lo mid
  else lo
termination_by hi - lo

/-- True if the element at index `i` comes before that at index `j`. -/
def comesBefore (before : α → α → Bool) (xs : Array α) (i j : Nat) : Bool :=
  match xs[i]?, xs[j]? with
  | some x, some y => before x y
  | _, _ => false

/-- How many elements of the left part belong to the first half of the merged list. -/
def leftShare (before : α → α → Bool) (left right : List α) : Nat :=
  let all := (left ++ right).toArray
  let half := all.size / 2
  let top := half + left.length
  let (lo, hi) := if half < left.length then (top - all.size, half) else (0, left.length)
  min half (firstFailing (fun c => !comesBefore before all (top - 1 - c) c) lo hi)

theorem leftShare_le (before : α → α → Bool) (left right : List α) :
    leftShare before left right ≤ (left.length + right.length) / 2 := by
  refine Nat.le_trans (Nat.min_le_left _ _) (Nat.le_of_eq ?_)
  rw [List.size_toArray, List.length_append]

/-- Merges two sorted lists; elements of the left one come first where they compare equal. -/
def merge (before : α → α → Bool) (left right : List α) : List α :=
  match left, right with
  | [], ys => ys
  | xs, [] => xs
  | [x], ys =>
    let place := firstFailing (fun i => (ys[i]?.map fun y => before y x).getD false) 0 ys.length
    ys.take place ++ x :: ys.drop place
  | xs, [y] =>
    let place := firstFailing (fun i => (xs[i]?.map fun x => !before y x).getD false) 0 xs.length
    xs.take place ++ y :: xs.drop place
  | x :: x' :: xs, y :: y' :: ys =>
    let half := (xs.length + ys.length) / 2 + 2
    let share := leftShare before (x :: x' :: xs) (y :: y' :: ys)
    merge before ((x :: x' :: xs).take share) ((y :: y' :: ys).take (half - share)) ++
      merge before ((x :: x' :: xs).drop share) ((y :: y' :: ys).drop (half - share))
termination_by left.length + right.length
decreasing_by
  · have h := leftShare_le before (x :: x' :: xs) (y :: y' :: ys)
    simp only [List.length_take, List.length_cons] at h ⊢
    omega
  · simp only [List.length_drop, List.length_cons]
    omega

/-- The blocks of `size` elements of a list, the last one perhaps shorter. -/
def blocks (size : Nat) (xs : List α) : List (List α) :=
  match xs with
  | [] => []
  | x :: rest => (x :: rest.take (size - 1)) :: blocks size (rest.drop (size - 1))
termination_by xs.length
decreasing_by
  simp only [List.length_drop, List.length_cons]
  omega

/-- Merges each block with the one after it. -/
def mergePairs (before : α → α → Bool) : List (List α) → List (List α)
  | xs :: ys :: more => merge before xs ys :: mergePairs before more
  | rest => rest

theorem length_mergePairs (before : α → α → Bool) (bs : List (List α)) :
    (mergePairs before bs).length = (bs.length + 1) / 2 := by
  fun_induction mergePairs before bs with
  | case1 xs ys more ih => simp [ih]; omega
  | case2 rest h =>
    match rest with
    | [] => simp
    | [_] => simp
    | xs :: ys :: more => exact absurd rfl (h xs ys more)

/-- Merges blocks until one is left. -/
def mergeAll (before : α → α → Bool) (bs : List (List α)) : List α :=
  match bs with
  | [] => []
  | [xs] => xs
  | xs :: ys :: more => mergeAll before (mergePairs before (xs :: ys :: more))
termination_by bs.length
decreasing_by rw [length_mergePairs]; simp; omega

/-- The elements in order; elements of which neither comes before the other keep their order. -/
def byBlocks (before : α → α → Bool) (xs : List α) : List α :=
  mergeAll before ((blocks 20 xs).map (byInsertion before))

/-! ## Nothing is lost -/

theorem insertBack_perm (before : α → α → Bool) (x : α) (xs : List α) :
    (insertBack before x xs).Perm (x :: xs) := by
  fun_induction insertBack before x xs with
  | case1 => rfl
  | case2 y ys _ ih => exact (ih.cons y).trans (List.Perm.swap x y ys)
  | case3 => rfl

theorem byInsertion_perm (before : α → α → Bool) (xs : List α) :
    (byInsertion before xs).Perm xs := by
  suffices h : ∀ sorted : List α,
      (xs.foldl (fun sorted x => insertBack before x sorted) sorted).Perm (sorted ++ xs) from
    (List.reverse_perm _).trans (h [])
  induction xs with
  | nil => intro sorted; simp
  | cons x xs ih =>
    intro sorted
    refine (ih _).trans ?_
    exact ((insertBack_perm before x sorted).append_right xs).trans List.perm_middle.symm

theorem merge_perm (before : α → α → Bool) (left right : List α) :
    (merge before left right).Perm (left ++ right) := by
  fun_induction merge before left right with
  | case1 => rfl
  | case2 xs => simp
  | case3 x ys _ place =>
    refine List.perm_middle.trans ?_
    rw [List.take_append_drop, List.singleton_append]
  | case4 xs y _ _ place =>
    refine List.perm_middle.trans ?_
    rw [List.take_append_drop]
    exact (List.perm_append_singleton y xs).symm
  | case5 x x' xs y y' ys half share ih₁ ih₂ =>
    refine (ih₁.append ih₂).trans ?_
    rw [List.append_assoc]
    refine (List.perm_append_comm_assoc _ _ _).append_left _ |>.trans ?_
    rw [← List.append_assoc, List.take_append_drop, List.take_append_drop]

theorem flatten_mergePairs_perm (before : α → α → Bool) (bs : List (List α)) :
    (mergePairs before bs).flatten.Perm bs.flatten := by
  fun_induction mergePairs before bs with
  | case1 xs ys more ih =>
    simp only [List.flatten_cons, ← List.append_assoc]
    exact (merge_perm before xs ys).append ih
  | case2 => rfl

theorem mergeAll_perm (before : α → α → Bool) (bs : List (List α)) :
    (mergeAll before bs).Perm bs.flatten := by
  fun_induction mergeAll before bs with
  | case1 => rfl
  | case2 xs => simp
  | case3 xs ys more ih => exact ih.trans (flatten_mergePairs_perm before _)

theorem flatten_blocks (size : Nat) (xs : List α) : (blocks size xs).flatten = xs := by
  fun_induction blocks size xs with
  | case1 => rfl
  | case2 x rest ih => rw [List.flatten_cons, ih, List.cons_append, List.take_append_drop]

theorem flatten_map_byInsertion_perm (before : α → α → Bool) (bs : List (List α)) :
    (bs.map (byInsertion before)).flatten.Perm bs.flatten := by
  induction bs with
  | nil => rfl
  | cons xs bs ih => exact (byInsertion_perm before xs).append ih

/-- Sorting only changes the order. -/
theorem byBlocks_perm (before : α → α → Bool) (xs : List α) : (byBlocks before xs).Perm xs := by
  have h := (mergeAll_perm before _).trans (flatten_map_byInsertion_perm before (blocks 20 xs))
  rwa [flatten_blocks] at h

end Sorting

end Stopwatch
