import Stopwatch.Prime.Root

/-!
# Primality by trial division

`isPrime` divides by 2, by 3 and then by the neighbours of the multiples of six up to the square
root; `isPrimeByTrial` is the plain reference that tries every divisor. Both loops count in 64-bit
words and end because their counter grows: the root of a word is so small that the first counter
cannot wrap, and the second stops long before the greatest number.

`count?` counts the primes of a range. Its counter goes as far as the caller says, so it can wrap.
-/

namespace Stopwatch

namespace Prime

/-- True if none of `x - 1`, `x + 1`, `x + 5`, `x + 7`, … divides `n`. A multiple of six is tried as
long as its lower neighbour does not exceed the limit. -/
def noDivisorFrom (n limit : UInt64) (h : limit ≤ maxRoot) (x : UInt64) : Bool :=
  if hx : x - 1 ≤ limit then
    if n % (x - 1) == 0 || n % (x + 1) == 0 then false else noDivisorFrom n limit h (x + 6)
  else true
termination_by maxRoot.toNat + 2 - x.toNat
decreasing_by
  have hm : maxRoot.toNat = 4294967295 := rfl
  have h1 := UInt64.le_iff_toNat_le.mp (UInt64.le_trans hx h)
  have h2 := x.toNat_lt
  rw [UInt64.toNat_sub, UInt64.toNat_one] at h1
  rw [UInt64.toNat_add, show (6 : UInt64).toNat = 6 from rfl]
  omega

/-- Whether a 64-bit word is prime. -/
def isPrimeWord (n : UInt64) : Bool :=
  if n == 2 || n == 3 then true
  else if n ≤ 1 || n % 2 == 0 || n % 3 == 0 then false
  else noDivisorFrom n (isqrt n) (isqrt_le n) 6

/-- Whether a signed 64-bit number is prime; none below two is. -/
def isPrime (n : Int64) : Bool :=
  if n ≤ 1 then false else isPrimeWord n.toUInt64

theorem div_maxValue_lt (n : Int64) : n / Int64.maxValue < Int64.maxValue := by
  have h := Int.tdiv_le_tdiv (show 0 < Int64.maxValue.toInt by decide) n.toInt_le
  rw [Int.tdiv_self (by decide)] at h
  rw [Int64.lt_iff_toInt_lt, Int64.toInt_div_of_ne_right _ _ (by decide)]
  exact Int.lt_of_le_of_lt h (by decide)

theorem toInt_add_one {d : Int64} (h : d ≠ Int64.maxValue) : (d + 1).toInt = d.toInt + 1 := by
  have h1 := d.le_toInt
  have h2 := d.toInt_le
  have h3 : d.toInt ≠ Int64.maxValue.toInt := fun he => h (Int64.toInt_inj.mp he)
  have hm : Int64.maxValue.toInt = 9223372036854775807 := rfl
  rw [Int64.toInt_add, show (1 : Int64).toInt = 1 from rfl]
  exact Int.bmod_eq_of_le (by omega) (by omega)

theorem sub_toInt_add_one_lt {n : Int64} (h : n ≠ Int64.maxValue) :
    (Int64.maxValue.toInt - (n + 1).toInt).toNat < (Int64.maxValue.toInt - n.toInt).toNat := by
  have h1 := n.toInt_le
  have h2 : n.toInt ≠ Int64.maxValue.toInt := fun he => h (Int64.toInt_inj.mp he)
  rw [toInt_add_one h]
  omega

/-- True if no `d` from the given one on, up to the square root of `n`, divides `n`. -/
def noDivisorUpTo (n d : Int64) : Bool :=
  if h : d ≤ n / d then
    if n % d == 0 then false else noDivisorUpTo n (d + 1)
  else true
termination_by (Int64.maxValue.toInt - d.toInt).toNat
decreasing_by
  have hd : d ≠ Int64.maxValue := by
    rintro rfl
    exact absurd (div_maxValue_lt n) (Int64.not_lt.mpr h)
  exact sub_toInt_add_one_lt hd

/-- Whether a signed 64-bit number is prime, by trying every divisor. -/
def isPrimeByTrial (n : Int64) : Bool :=
  if n < 2 then false else noDivisorUpTo n 2

/-- How many primes there are among `first` and the `count - 1` numbers after it. -/
def countFrom : Nat → Int64 → Nat → Nat
  | 0, _, found => found
  | count + 1, n, found => countFrom count (n + 1) (if isPrime n then found + 1 else found)

/-- Counts the primes from `n` to `hi`, after those found before. No word is beyond the greatest
one, where the counter wraps: a loop that gets there goes on for ever and has no answer. -/
def countTo? (hi n : Int64) (found : Nat) : Option Nat :=
  if n ≤ hi then
    if h : n = Int64.maxValue then none
    else countTo? hi (n + 1) (if isPrime n then found + 1 else found)
  else some found
termination_by (Int64.maxValue.toInt - n.toInt).toNat
decreasing_by exact sub_toInt_add_one_lt h

/-- The number of primes from `lo` to `hi`. -/
def count? (lo hi : Int64) : Option Nat := countTo? hi lo 0

end Prime

end Stopwatch
