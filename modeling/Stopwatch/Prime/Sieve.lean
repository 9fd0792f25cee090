import Stopwatch.Room

/-!
# Sieve of Eratosthenes

A table of truth values indexed by number. Limits, candidates and multiples are 64-bit words, which
wrap. An index outside of the table stops the sieve, and then there is no answer, as there is none
from a loop that never ends. That there is room for the table is asked beforehand (`hasTable`).

A counter that goes up comes closer to the greatest word until it wraps, and the least word is not
an index. So `above`, the number of words from the counter on, or none for a counter below zero,
decreases in both loops.
-/

namespace Stopwatch

namespace Prime

/-- How many words there are from an index on. -/
def above (i : Int64) : Nat := if 0 ≤ i then (Int64.maxValue.toInt + 1 - i.toInt).toNat else 0

theorem above_add_lt {i step : Int64} (hi : 0 ≤ i) (hstep : 0 < step) :
    above (i + step) < above i := by
  have hsum : (i + step).toInt = (i.toInt + step.toInt).bmod 18446744073709551616 :=
    Int64.toInt_add i step
  have hmax : Int64.maxValue.toInt = 9223372036854775807 := rfl
  have h1 := i.toInt_le
  have h2 := step.toInt_le
  rw [above, above, if_pos hi]
  simp only [Int64.le_iff_toInt_le, Int64.lt_iff_toInt_lt, Int64.toInt_zero] at hi hstep ⊢
  rw [Int.bmod_def] at hsum
  split <;> omega

/-- The table has an entry at the index. -/
abbrev HasEntry (table : Array Bool) (i : Int64) : Prop := 0 ≤ i ∧ i.toNatClampNeg < table.size

/-- A table of the given size without a mark. There is none of a negative size. -/
def unmarked? (size : Int64) : Option (Array Bool) :=
  if 0 ≤ size then some (Array.replicate size.toNatClampNeg false) else none

/-- Sets the entries `i`, `i + step`, `i + 2 * step`, … up to the limit. With a step that does not
go up the loop would leave the table at its lower end or go on for ever. -/
def setFrom? (limit step : Int64) (b : Bool) (i : Int64) (table : Array Bool) :
    Option (Array Bool) :=
  if i ≤ limit then
    if h : HasEntry table i ∧ 0 < step then
      setFrom? limit step b (i + step) (table.set i.toNatClampNeg b h.1.2)
    else none
  else some table
termination_by above i
decreasing_by exact above_add_lt h.1.1 h.2

/-- Crosses out the multiples of a candidate from its square on, if the candidate is still marked
itself. -/
def crossOut? (limit p : Int64) (table : Array Bool) : Option (Array Bool) :=
  if table.getD p.toNatClampNeg false then setFrom? limit p false (p * p) table else some table

/-- Crosses out for every candidate from `p` on whose square does not exceed the limit. -/
def sieveFrom? (limit p : Int64) (table : Array Bool) : Option (Array Bool) :=
  if p * p ≤ limit then
    if h : HasEntry table p then
      (crossOut? limit p table).bind fun table => sieveFrom? limit (p + 1) table
    else none
  else some table
termination_by above p
decreasing_by exact above_add_lt h.1 (by decide)

/-- The table of the numbers `0` to `limit`, in which the primes are marked. A negative limit gives
an empty table. -/
def sieve? (limit : Int64) : Option (Array Bool) := do
  if limit < 0 then
    return #[]
  let table ← unmarked? (limit + 1)
  sieveFrom? limit 2 (← setFrom? limit 1 true 2 table)

/-- True if there can be a table up to `limit`. An entry has one byte. -/
def hasTable (limit : Int) : Bool := limit < 0 || Room.holds 1 (limit + 1)

/-- The number of marks in a table. -/
def countMarks (table : Array Bool) : Nat := table.foldl (fun n b => if b then n + 1 else n) 0

/-- The number of primes up to `limit`. -/
def countBySieve? (limit : Int64) : Option Nat := (sieve? limit).map countMarks

end Prime

end Stopwatch
