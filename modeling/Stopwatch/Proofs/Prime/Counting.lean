import Stopwatch.Proofs.Prime.Sieve
import Stopwatch.Workload

/-!
# Counting primes

Three loops count primes: one tests number after number, one does the same and keeps the last
number, and the sieve. Over the number of primes below a number (`below`), what a step of the first
loop adds is `below_add_one`, so the loop finds what lies between its ends (`countFrom_add_below`),
wherever it starts. The second loop is the first one, a number further on (`fst_scanFrom`).
-/

namespace Stopwatch

namespace Prime

/-- The number of primes below a signed number. -/
def below (n : ℤ) : ℕ := Nat.count Nat.Prime n.toNat

theorem isPrime_iff_toNat (n : Int64) : isPrime n = true ↔ n.toInt.toNat.Prime := by
  rw [isPrime_iff]
  by_cases hneg : n.toInt < 0
  · rw [Int.toNat_of_nonpos (by omega)]
    exact iff_of_false (not_isPrimeInt_of_lt (by omega)) Nat.not_prime_zero
  · exact isPrimeInt_iff (Int.toNat_of_nonneg (by omega)).symm

/-- A number adds to the count exactly if it is prime. -/
theorem below_add_one_int (n : ℤ) : below (n + 1) = below n + if n.toNat.Prime then 1 else 0 := by
  by_cases hneg : n < 0
  · have hzero : n.toNat = 0 := Int.toNat_of_nonpos (by omega)
    rw [below, below, hzero, Int.toNat_of_nonpos (by omega),
      if_neg Nat.not_prime_zero, Nat.add_zero]
  · rw [below, below, show (n + 1).toNat = n.toNat + 1 by omega, Nat.count_succ]

theorem below_add_one (n : Int64) :
    below (n.toInt + 1) = below n.toInt + if isPrime n then 1 else 0 := by
  simp only [below_add_one_int, isPrime_iff_toNat]

/-- **The loop counts the primes from its first number on**, if the numbers that it tests are all
there. -/
theorem countFrom_add_below (count : ℕ) (n : Int64) (found : ℕ) (h : n.toInt + count ≤ 2 ^ 63) :
    countFrom count n found + below n.toInt = found + below (n.toInt + count) := by
  induction count generalizing n found with
  | zero => simp [countFrom]
  | succ count ih =>
    have hstep := below_add_one n
    have hcount : countFrom (count + 1) n found =
        countFrom count (n + 1) (if isPrime n then found + 1 else found) := rfl
    by_cases hmax : n = Int64.maxValue
    · -- The counter wraps after the greatest number, which is the last one.
      have htop : n.toInt = 2 ^ 63 - 1 := by
        rw [hmax]
        rfl
      obtain rfl : count = 0 := by omega
      rw [hcount, countFrom, Nat.cast_one, hstep]
      split_ifs <;> omega
    · have hrest :=
        ih (n + 1) (if isPrime n then found + 1 else found) (by rw [toInt_add_one hmax]; omega)
      rw [toInt_add_one hmax, hstep, show n.toInt + 1 + (count : ℤ) = n.toInt +
        (count + 1 : ℕ) by omega] at hrest
      rw [hcount]
      split_ifs at hrest ⊢ <;> omega

theorem below_succ (k : ℕ) : below (k + 1) = upTo k := by
  rw [below, show ((k : ℤ) + 1).toNat = k + 1 by omega, count_succ_eq_upTo]

end Prime

namespace Workload

open Stopwatch.Prime

variable {k : UInt64}

theorem fst_scanFrom (count : ℕ) (last : Int64) (found : ℕ) :
    (scanFrom count last found).1 = countFrom count (last + 1) found := by
  induction count generalizing last found with
  | zero => rfl
  | succ count ih => exact ih (last + 1) _

theorem countUpTo_eq_upTo (h : k.toNat < 2 ^ 63) : countUpTo k = upTo k.toNat := by
  have hbelow : below 2 = 0 := by decide
  by_cases hzero : k.toNat = 0
  · rw [countUpTo, hzero]
    rfl
  · have hcount :=
      countFrom_add_below (k.toNat - 1) 2 0 (by rw [show (2 : Int64).toInt = 2 from rfl]; omega)
    rw [show (2 : Int64).toInt = 2 from rfl, hbelow,
      show (2 : ℤ) + (k.toNat - 1 : ℕ) = k.toNat + 1 by omega, below_succ] at hcount
    rw [countUpTo]
    omega

/-- A scan from one is a count from two. -/
theorem fst_scanFrom_one (h : 1 ≤ k) : (scanFrom (k - 1).toNat 1 0).1 = countUpTo k := by
  rw [fst_scanFrom, countUpTo, toNat_sub_one (UInt64.le_iff_toNat_le.mp h)]
  rfl

end Workload

end Stopwatch
