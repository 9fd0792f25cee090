import Mathlib.Data.List.DropRight
import Stopwatch.Dashboard.Ring

/-!
# What a ring holds after any history

The cells of a ring are used in a circle, and a new capacity starts a new circle with the samples
that still fit. Seen from outside there is only a list that forgets its oldest samples: `Plain` is
this list, and `run_refines` says that the two agree after any sequence of samples, new capacities
and fresh starts.

One step keeps the two in agreement (`Agrees.perform`), whatever the history before it was. The
positions on the circle play no part in this; that they are the remainders modulo the capacity is
said by `cellOf_eq_mod`.
-/

namespace Stopwatch.Ring

/-! ## Histories -/

/-- What can be done with a ring. -/
inductive Deed where
  | push (x : Float)
  | resize (capacity : ℤ)
  | clear

def perform (r : Ring) : Deed → Ring
  | .push x => r.push x
  | .resize capacity => r.resize capacity
  | .clear => r.clear

/-- The ring after a history that starts with a capacity. -/
def run (capacity : ℤ) (deeds : List Deed) : Ring := deeds.foldl perform (empty capacity)

/-- The capacity that was asked for last. -/
def asked (capacity : ℤ) : List Deed → ℤ
  | [] => capacity
  | .resize c :: deeds => asked c deeds
  | .push _ :: deeds => asked capacity deeds
  | .clear :: deeds => asked capacity deeds

/-- A list that keeps only its newest samples. -/
structure Plain where
  capacity : ℤ
  /-- The samples, oldest first. -/
  samples : List Float

namespace Plain

/-- Forgets the oldest samples that do not fit. -/
def cut (p : Plain) : Plain := { p with samples := p.samples.rtake p.capacity.toNat }

def perform (p : Plain) : Deed → Plain
  | .push x => cut { p with samples := p.samples ++ [x] }
  | .resize capacity => cut { p with capacity := max 1 capacity }
  | .clear => cut { p with samples := [] }

/-- The list after a history that starts with a capacity. -/
def run (capacity : ℤ) (deeds : List Deed) : Plain := deeds.foldl perform ⟨max 1 capacity, []⟩

end Plain

/-! ## Agreement -/

theorem newest_eq_rtake (n : ℕ) (xs : List Float) : newest n xs = xs.rtake n := rfl

theorem natCast_cellsFor (capacity : ℤ) : (cellsFor capacity : ℤ) = max 1 capacity := by
  unfold cellsFor
  omega

/-- The ring holds the samples of the list, and has room for as many. -/
structure Agrees (r : Ring) (p : Plain) : Prop where
  capacity : (r.capacity : ℤ) = p.capacity
  samples : r.toList = p.samples

variable {r : Ring} {p : Plain}

theorem agrees_empty (capacity : ℤ) : Agrees (empty capacity) ⟨max 1 capacity, []⟩ :=
  ⟨natCast_cellsFor capacity, rfl⟩

/-- One step: the circle forgets what the list forgets. -/
theorem Agrees.perform (h : Agrees r p) (deed : Deed) :
    Agrees (r.perform deed) (p.perform deed) := by
  have hcap : r.capacity = p.capacity.toNat := by
    have := h.capacity
    omega
  cases deed with
  | push x =>
    refine ⟨h.capacity, ?_⟩
    show (r.push x).toList = (p.samples ++ [x]).rtake p.capacity.toNat
    rw [toList_push, newest_eq_rtake, h.samples, hcap]
  | resize capacity =>
    have hcells : (max 1 capacity).toNat = cellsFor capacity := by
      have := natCast_cellsFor capacity
      omega
    refine ⟨?_, ?_⟩
    · show ((r.resize capacity).capacity : ℤ) = max 1 capacity
      rw [capacity_resize, natCast_cellsFor]
    · show (r.resize capacity).toList = p.samples.rtake (max 1 capacity).toNat
      rw [toList_resize, newest_eq_rtake, h.samples, hcells]
  | clear => exact ⟨h.capacity, (List.rtake_nil _).symm⟩

/-- All steps: agreement lasts through any history. -/
theorem Agrees.foldl (h : Agrees r p) (deeds : List Deed) :
    Agrees (deeds.foldl Ring.perform r) (deeds.foldl Plain.perform p) := by
  induction deeds generalizing r p with
  | nil => exact h
  | cons deed deeds ih => exact ih (h.perform deed)

theorem agrees_run (capacity : ℤ) (deeds : List Deed) :
    Agrees (run capacity deeds) (Plain.run capacity deeds) :=
  (agrees_empty capacity).foldl deeds

theorem capacity_foldl {capacity : ℤ} (h : (r.capacity : ℤ) = max 1 capacity) (deeds : List Deed) :
    ((deeds.foldl perform r).capacity : ℤ) = max 1 (asked capacity deeds) := by
  induction deeds generalizing r capacity with
  | nil => exact h
  | cons deed deeds ih =>
    cases deed with
    | push x => exact ih h
    | resize c =>
      refine ih (r := r.resize c) ?_
      rw [capacity_resize, natCast_cellsFor]
    | clear => exact ih h

/-! ## Positions -/

theorem around_eq_mod {n position : ℕ} (h : position < 2 * n) :
    around n position = position % n := by
  unfold around
  split
  · next hlt => rw [Nat.mod_eq_of_lt hlt]
  · next hge => rw [Nat.mod_eq_sub_mod (by omega), Nat.mod_eq_of_lt (by omega)]

/-- The samples lie one after the other from the cell of the oldest one, around the circle. -/
theorem cellOf_eq_mod (r : Ring) {i : ℕ} (h : i < r.count) :
    r.cellOf i = ((r.next + r.capacity - r.count) % r.capacity + i) % r.capacity := by
  have hnext := r.next_lt
  have hcount := Nat.le_trans r.count_le r.size_le
  unfold cellOf
  rw [around_eq_mod (by omega), Nat.mod_add_mod]

theorem getElem?_cells (r : Ring) {i : ℕ} (h : i < r.count) :
    r.cells[((r.next + r.capacity - r.count) % r.capacity + i) % r.capacity]? = r.toList[i]? := by
  rw [← cellOf_eq_mod r h, getElem?_toList, if_pos h]

theorem last_eq (r : Ring) : r.last = r.toList.getLast?.getD 0.0 := by
  unfold last
  rw [List.getLast?_eq_getElem?, length_toList]
  by_cases h : 0 < r.count
  · rw [dif_pos h, getElem?_toList, if_pos (by omega),
      Array.getElem?_eq_getElem (r.cellOf_lt (by omega))]
    rfl
  · rw [dif_neg h, getElem?_toList, if_neg (by omega)]
    rfl

theorem getElem?_cells_last (r : Ring) (h : 0 < r.count) :
    r.cells[(r.next + r.capacity - 1) % r.capacity]? = r.toList.getLast? := by
  have hcount := Nat.le_trans r.count_le r.size_le
  have hposition : ((r.next + r.capacity - r.count) % r.capacity + (r.count - 1)) % r.capacity =
      (r.next + r.capacity - 1) % r.capacity := by
    rw [Nat.mod_add_mod]
    congr 1
    omega
  rw [List.getLast?_eq_getElem?, length_toList, ← getElem?_cells r (by omega), hposition]

/-- **After any history a ring holds what the plain list holds**, oldest first, and every position
that is looked up lies on the circle and gives the sample that is meant. -/
theorem run_refines (capacity : ℤ) (deeds : List Deed) :
    let r := run capacity deeds
    let samples := (Plain.run capacity deeds).samples
    r.toList = samples ∧ r.count = samples.length ∧ r.last = samples.getLast?.getD 0.0 ∧
      (r.capacity : ℤ) = max 1 (asked capacity deeds) ∧ r.next < r.capacity ∧
      (∀ i < r.count, r.cells[((r.next + r.capacity - r.count) % r.capacity + i) %
        r.capacity]? = samples[i]?) ∧
      (0 < r.count → r.cells[(r.next + r.capacity - 1) % r.capacity]? = samples.getLast?) := by
  intro r samples
  have hlist : r.toList = samples := (agrees_run capacity deeds).samples
  refine ⟨hlist, ?_, ?_, capacity_foldl (natCast_cellsFor capacity) deeds, r.next_lt, ?_, ?_⟩
  · rw [← hlist, length_toList]
  · rw [← hlist, last_eq]
  · intro i hi
    rw [← hlist, getElem?_cells r hi]
  · intro hpos
    rw [← hlist, getElem?_cells_last r hpos]

/-- The circle goes around, shrinks and grows again: what a smaller capacity drops stays away. -/
theorem run_refines_of_shrink_and_grow :
    let deeds : List Deed :=
      [.push 1.0, .push 2.0, .push 3.0, .push 4.0, .resize 2, .resize 5, .push 6.0]
    (run 3 deeds).toList = [3.0, 4.0, 6.0] ∧ 0 < (run 3 deeds).count ∧
      (run 3 deeds).cells[((run 3 deeds).next + (run 3 deeds).capacity - 1) %
        (run 3 deeds).capacity]? =
        some 6.0 := by
  intro deeds
  obtain ⟨hlist, -, -, -, -, -, hlast⟩ := run_refines 3 deeds
  have hcount : 0 < (run 3 deeds).count := by decide
  exact ⟨hlist, hcount, hlast hcount⟩

end Stopwatch.Ring
