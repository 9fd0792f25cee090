import Stopwatch.Room

/-!
# Ring buffers

A ring keeps the most recent samples of a series, up to a capacity. Its cells are used in a circle:
`next` is the cell that the next sample goes to, and the `count` cells before it hold the samples,
the oldest first. A cell is set aside when a sample first goes to it, so a ring of great capacity
takes no more room than its samples do. That the samples lie in cells that are set aside is part of
the type, so every look-up below is in range.

`Ring.toList` is the view: what the ring holds, oldest sample first. The lemmas say what each
operation does to it:

* `toList_push`: the sample comes last, and only the newest samples stay;
* `toList_resize`: only the newest samples stay that fit into the new capacity;
* `toList_clear`: nothing stays.
-/

namespace Stopwatch

/-- The most recent samples of a series. -/
structure Ring where
  /-- The number of cells on the circle. -/
  capacity : Nat
  /-- The cells that are set aside, the first ones of the circle. -/
  cells : Array Float
  /-- The cell that the next sample goes to. -/
  next : Nat
  /-- How many cells hold a sample. -/
  count : Nat
  next_lt : next < capacity
  size_le : cells.size ≤ capacity
  next_le : next ≤ cells.size
  count_le : count ≤ cells.size
  /-- The samples go around the circle only if all cells are set aside. -/
  count_le_next : cells.size < capacity → count ≤ next

namespace Ring

/-- The number of cells for a capacity that was asked for, which is never less than one. -/
def cellsFor (capacity : Int) : Nat := (max capacity 1).toNat

theorem cellsFor_pos (capacity : Int) : 0 < cellsFor capacity := by
  unfold cellsFor
  omega

/-- True if there can be a ring for a capacity that was asked for. A cell has eight bytes. -/
def isPossible (capacity : Int) : Bool := Room.holds 8 (cellsFor capacity)

/-- A position on a circle of `n` cells, for positions that go around at most once. -/
def around (n position : Nat) : Nat := if position < n then position else position - n

theorem around_lt {n position : Nat} (h : position < 2 * n) : around n position < n := by
  unfold around
  split <;> omega

/-- A ring without samples. -/
def empty (capacity : Int) : Ring where
  capacity := cellsFor capacity
  cells := #[]
  next := 0
  count := 0
  next_lt := cellsFor_pos capacity
  size_le := Nat.zero_le _
  next_le := Nat.le_refl _
  count_le := Nat.le_refl _
  count_le_next := fun _ => Nat.le_refl _

instance : Inhabited Ring := ⟨empty 1⟩

/-- The cells with a sample in the next one, which is set aside if it is not yet. -/
def stored (r : Ring) (x : Float) : Array Float :=
  if h : r.next < r.cells.size then r.cells.set r.next x h else r.cells.push x

theorem size_stored (r : Ring) (x : Float) : (r.stored x).size = max r.cells.size (r.next + 1) := by
  have := r.next_le
  unfold stored
  split
  · rw [Array.size_set]
    omega
  · rw [Array.size_push]
    omega

/-- The sample lies in the next cell, and the other cells are as before. -/
theorem getElem?_stored (r : Ring) (x : Float) (i : Nat) :
    (r.stored x)[i]? = if i = r.next then some x else r.cells[i]? := by
  have := r.next_le
  unfold stored
  split
  · rw [Array.getElem?_set]
    grind
  · rw [Array.getElem?_push]
    grind

/-- Adds a sample; a full ring loses its oldest one. -/
def push (r : Ring) (x : Float) : Ring where
  capacity := r.capacity
  cells := r.stored x
  next := around r.capacity (r.next + 1)
  count := min (r.count + 1) r.capacity
  next_lt := by
    have := r.next_lt
    exact around_lt (by omega)
  size_le := by
    have := r.next_lt
    have := r.size_le
    rw [size_stored]
    omega
  next_le := by
    rw [size_stored]
    unfold around
    split <;> omega
  count_le := by
    have := r.next_lt
    have := r.size_le
    have := r.count_le
    have := r.count_le_next
    rw [size_stored]
    omega
  count_le_next := by
    have := r.next_le
    have := r.count_le_next
    rw [size_stored]
    unfold around
    split <;> omega

/-- The cell of the sample with `i` older ones in the ring. -/
def cellOf (r : Ring) (i : Nat) : Nat := around r.capacity (r.next + r.capacity - r.count + i)

theorem cellOf_lt (r : Ring) {i : Nat} (h : i < r.count) : r.cellOf i < r.cells.size := by
  have := r.next_lt
  have := r.size_le
  have := r.next_le
  have := r.count_le
  have := r.count_le_next
  unfold cellOf around
  split <;> omega

/-- The sample with `i` older ones in the ring. -/
def sample (r : Ring) (i : Fin r.count) : Float :=
  have := r.cellOf_lt i.isLt
  r.cells[r.cellOf i]

/-- The samples, oldest first. -/
def toList (r : Ring) : List Float := List.ofFn r.sample

/-- The newest sample; zero if there is none. -/
def last (r : Ring) : Float := if h : 0 < r.count then r.sample ⟨r.count - 1, by omega⟩ else 0.0

/-- Adds samples in order. -/
def pushAll (r : Ring) (xs : List Float) : Ring := xs.foldl push r

/-- The newest `n` of some samples. -/
def newest (n : Nat) (xs : List Float) : List Float := xs.drop (xs.length - n)

/-- Changes the capacity; of the samples the newest stay, as many as fit. -/
def resize (r : Ring) (capacity : Int) : Ring :=
  if cellsFor capacity = r.capacity then r
  else (empty capacity).pushAll (newest (cellsFor capacity) r.toList)

/-- Forgets all samples. -/
def clear (r : Ring) : Ring :=
  { r with
    next := 0
    count := 0
    next_lt := Nat.lt_of_le_of_lt (Nat.zero_le _) r.next_lt
    next_le := Nat.zero_le _
    count_le := Nat.zero_le _
    count_le_next := fun _ => Nat.le_refl _ }

/-! ## The newest samples -/

theorem length_newest (n : Nat) (xs : List Float) : (newest n xs).length = min n xs.length := by
  unfold newest
  rw [List.length_drop]
  omega

theorem newest_of_length_le {n : Nat} {xs : List Float} (h : xs.length ≤ n) : newest n xs = xs := by
  unfold newest
  rw [Nat.sub_eq_zero_of_le h, List.drop_zero]

/-- What was dropped before is not missed after. -/
theorem newest_newest_append (n : Nat) (xs ys : List Float) :
    newest n (newest n xs ++ ys) = newest n (xs ++ ys) := by
  unfold newest
  rw [List.drop_append, List.drop_append, List.drop_drop, List.length_append, List.length_append,
    List.length_drop]
  congr 2 <;> omega

/-! ## Capacity -/

@[simp] theorem capacity_empty (capacity : Int) :
    (empty capacity).capacity = cellsFor capacity := rfl

@[simp] theorem capacity_push (r : Ring) (x : Float) : (r.push x).capacity = r.capacity := rfl

@[simp] theorem capacity_clear (r : Ring) : r.clear.capacity = r.capacity := rfl

theorem capacity_pushAll (r : Ring) (xs : List Float) : (r.pushAll xs).capacity = r.capacity := by
  induction xs generalizing r with
  | nil => rfl
  | cons x xs ih => exact (ih (r.push x)).trans (capacity_push r x)

theorem capacity_resize (r : Ring) (capacity : Int) :
    (r.resize capacity).capacity = cellsFor capacity := by
  unfold resize
  split
  · rename_i h
    exact h.symm
  · rw [capacity_pushAll, capacity_empty]

/-! ## Samples -/

@[simp] theorem length_toList (r : Ring) : r.toList.length = r.count := List.length_ofFn

theorem length_toList_le (r : Ring) : r.toList.length ≤ r.capacity := by
  rw [length_toList]
  exact Nat.le_trans r.count_le r.size_le

@[simp] theorem toList_empty (capacity : Int) : (empty capacity).toList = [] := rfl

@[simp] theorem toList_clear (r : Ring) : r.clear.toList = [] := rfl

theorem getElem?_toList (r : Ring) (i : Nat) :
    r.toList[i]? = if i < r.count then r.cells[r.cellOf i]? else none := by
  unfold toList
  rw [List.getElem?_ofFn]
  split
  · rename_i h
    rw [Array.getElem?_eq_getElem (r.cellOf_lt h)]
    rfl
  · rfl

/-- A sample that is pushed comes last, and only the newest samples stay. -/
theorem toList_push (r : Ring) (x : Float) :
    (r.push x).toList = newest r.capacity (r.toList ++ [x]) := by
  have hn := r.next_lt
  have hc := Nat.le_trans r.count_le r.size_le
  apply List.ext_getElem?
  intro i
  unfold newest
  rw [List.getElem?_drop, List.getElem?_append, getElem?_toList, getElem?_toList]
  simp only [List.length_append, length_toList, List.length_cons, List.length_nil, push, cellOf,
    getElem?_stored]
  unfold around
  grind

theorem toList_pushAll (r : Ring) (xs : List Float) :
    (r.pushAll xs).toList = newest r.capacity (r.toList ++ xs) := by
  induction xs generalizing r with
  | nil => rw [List.append_nil, newest_of_length_le r.length_toList_le]; rfl
  | cons x xs ih =>
    have step : (r.pushAll (x :: xs)).toList = ((r.push x).pushAll xs).toList := rfl
    rw [step, ih, capacity_push, toList_push, newest_newest_append, List.append_assoc]
    rfl

/-- Of the samples of a ring that is resized the newest stay, as many as fit. -/
theorem toList_resize (r : Ring) (capacity : Int) :
    (r.resize capacity).toList = newest (cellsFor capacity) r.toList := by
  unfold resize
  split
  · rename_i h
    rw [newest_of_length_le (h ▸ r.length_toList_le)]
  · rw [toList_pushAll, toList_empty, List.nil_append, capacity_empty]
    exact newest_of_length_le (by rw [length_newest]; exact Nat.min_le_left _ _)

end Ring

end Stopwatch
