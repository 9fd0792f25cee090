import Mathlib.Algebra.Order.Group.Int
import Mathlib.Algebra.Order.Group.Nat
import Mathlib.Tactic.SplitIfs
import Stopwatch.Workload

/-!
# The limits of workloads

A workload may be run with as many iterations as its own bound allows, and no more than any workload
may. The bound of a prime scan is the distance from its start to the greatest signed word. It is
computed by a subtraction of words that wraps for a start below zero, and the difference is right
all the same (`toNat_bound_primeScan`). So the limit of a scan is the greatest number of iterations
for which its last number is still a signed word (`le_limit_primeScan_iff`).
-/

namespace Stopwatch.Workload

variable {w : Workload} {start : Int64} {printing : Bool} {k : UInt64}

theorem limit_eq (w : Workload) :
    w.limit = if w.bound ≤ maxIterations then w.bound else maxIterations := rfl

theorem limit_lt_iff : w.limit < k ↔ w.bound < k ∨ maxIterations < k := by
  rw [limit_eq]
  split_ifs with h <;> simp only [UInt64.lt_iff_toNat_lt, UInt64.le_iff_toNat_le] at h ⊢ <;> omega

theorem toNat_lt_of_le_limit (h : k ≤ w.limit) : k.toNat < 2 ^ 63 := by
  have hmax : ¬ maxIterations < k :=
    fun hlt => absurd (limit_lt_iff.mpr (.inr hlt)) (UInt64.not_lt.mpr h)
  rw [UInt64.lt_iff_toNat_lt, show maxIterations.toNat = 2 ^ 63 - 1 from rfl] at hmax
  omega

/-! ## The limit of a prime scan -/

/-- The bound of a prime scan does not wrap, wherever it starts. -/
theorem toNat_bound_primeScan (start : Int64) (printing : Bool) :
    ((primeScan start printing).bound.toNat : Int) = 0x7fffffffffffffff - start.toInt := by
  have hbound : (primeScan start printing).bound = 0x7fffffffffffffff - start.toUInt64 := rfl
  have hint : start.toInt = (start.toUInt64.toNat : Int).bmod (2 ^ 64) :=
    BitVec.toInt_eq_toNat_bmod _
  have hmax : (0x7fffffffffffffff : UInt64).toNat = 0x7fffffffffffffff := rfl
  have hlt := start.toUInt64.toNat_lt
  have hlo := start.le_toInt
  rw [Int.bmod] at hint
  rw [hbound, UInt64.toNat_sub, hmax]
  split at hint <;> omega

theorem toNat_limit_primeScan (start : Int64) (printing : Bool) :
    ((primeScan start printing).limit.toNat : ℤ) =
      min (Int64.maxValue.toInt - start.toInt) Int64.maxValue.toInt := by
  have hbound := toNat_bound_primeScan start printing
  have hmax : maxIterations.toNat = 2 ^ 63 - 1 := rfl
  have htop : Int64.maxValue.toInt = 2 ^ 63 - 1 := rfl
  rw [limit_eq]
  split_ifs with h <;> rw [UInt64.le_iff_toNat_le] at h <;> omega

/-- A scan may be as long as it has room. -/
theorem le_limit_primeScan_iff (h : k ≤ maxIterations) :
    k ≤ (primeScan start printing).limit ↔ start.toInt + k.toNat ≤ Int64.maxValue.toInt := by
  have hlimit := toNat_limit_primeScan start printing
  have htop : Int64.maxValue.toInt = 2 ^ 63 - 1 := rfl
  have hmax : k.toNat ≤ 2 ^ 63 - 1 := UInt64.le_iff_toNat_le.mp h
  rw [UInt64.le_iff_toNat_le]
  omega

theorem room_of_le_limit (h : k ≤ (primeScan start printing).limit) :
    start.toInt + k.toNat < 2 ^ 63 := by
  have hlimit := toNat_limit_primeScan start printing
  have htop : Int64.maxValue.toInt = 2 ^ 63 - 1 := rfl
  have hle := UInt64.le_iff_toNat_le.mp h
  omega

end Stopwatch.Workload
