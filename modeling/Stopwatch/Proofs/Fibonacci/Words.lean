import Mathlib.Tactic.NormNum.NatFib
import Stopwatch.Fibonacci
import Stopwatch.Proofs.Fibonacci.Doubling

/-!
# The Fibonacci numbers in words

Two algorithms give the pair of an index: doubling along the bits of the index, in exact numbers,
and stepping, in words that wrap. The first is exact (`exactPair_eq`). The second keeps the
remainders of the exact numbers modulo `2 ^ 64` (`advance_start`), because a sum of remainders is
the remainder of the sum. So the two agree once the exact pair is reduced to words, and the words
are the numbers themselves as long as the greater of the two fits.
-/

namespace Stopwatch.Fibonacci

open Nat (fib)

/-! ## Stepping -/

/-- The exact pair of an index reduced to words. -/
def wordsAt (n : ℕ) : Pair := ⟨UInt64.ofNat (fib n), UInt64.ofNat (fib (n + 1))⟩

theorem ofInt_natCast (n : ℕ) : UInt64.ofInt n = UInt64.ofNat n := by
  have hmod : ((n : ℤ) % 2 ^ 64).toNat = n % 2 ^ 64 := by omega
  rw [UInt64.ofInt, hmod]
  exact UInt64.ofNat_mod_size

theorem wrapped_eq (k : UInt64) : wrapped k = wordsAt k.toNat := by
  unfold wrapped
  simp only [exactPair_eq, ofInt_natCast, wordsAt]

theorem step_wordsAt (n : ℕ) : (wordsAt n).step = wordsAt (n + 1) := by
  simp [Pair.step, wordsAt, Nat.fib_add_two, UInt64.ofNat_add]

theorem iterate_succ (n : ℕ) (p : Pair) :
    iterate (n + 1) p.t1 p.t2 = iterate n p.step.t1 p.step.t2 := rfl

theorem iterate_add (m n : ℕ) (p : Pair) :
    iterate (m + n) p.t1 p.t2 = iterate n (iterate m p.t1 p.t2).t1 (iterate m p.t1 p.t2).t2 := by
  induction m generalizing p with
  | zero => rw [Nat.zero_add]; rfl
  | succ m ih => rw [Nat.succ_add, iterate_succ, iterate_succ, ih]

theorem iterate_wordsAt (m n : ℕ) : iterate n (wordsAt m).t1 (wordsAt m).t2 = wordsAt (m + n) := by
  induction n generalizing m with
  | zero => rfl
  | succ n ih => rw [iterate_succ, step_wordsAt, ih, Nat.succ_add_eq_add_succ]

/-- **The words after `k` steps are the exact pair modulo `2 ^ 64`.** -/
theorem advance_start (k : UInt64) : Pair.start.advance k = wordsAt k.toNat := by
  have h := iterate_wordsAt 0 k.toNat
  rwa [Nat.zero_add] at h

theorem advance_advance (p : Pair) {a b : UInt64} (h : a.toNat + b.toNat < 2 ^ 64) :
    (p.advance a).advance b = p.advance (a + b) := by
  have hsum : (a + b).toNat = a.toNat + b.toNat := by
    rw [UInt64.toNat_add, Nat.mod_eq_of_lt h]
  unfold Pair.advance
  rw [hsum, iterate_add]

/-! ## How far the words are exact -/

/-- The terms grow, so the first one that does not fit decides for all later ones. -/
theorem fib_succ_lt_iff (k : ℕ) : fib (k + 1) < 2 ^ 64 ↔ k ≤ maxExactIndex := by
  have hlast : fib (maxExactIndex + 1) < 2 ^ 64 := by norm_num [maxExactIndex]
  have hfirst : 2 ^ 64 ≤ fib (maxExactIndex + 2) := by norm_num [maxExactIndex]
  constructor
  · intro h
    by_contra hk
    have hmono : fib (maxExactIndex + 2) ≤ fib (k + 1) := Nat.fib_mono (by omega)
    omega
  · intro h
    have hmono : fib (k + 1) ≤ fib (maxExactIndex + 1) := Nat.fib_mono (by omega)
    omega

theorem toNat_wordsAt_iff (k : ℕ) :
    (wordsAt k).t1.toNat = fib k ∧ (wordsAt k).t2.toNat = fib (k + 1) ↔ k ≤ maxExactIndex := by
  have hle : fib k ≤ fib (k + 1) := Nat.fib_le_fib_succ
  simp only [wordsAt, UInt64.toNat_ofNat']
  rw [← fib_succ_lt_iff]
  constructor
  · rintro ⟨-, h⟩
    rw [← h]
    exact Nat.mod_lt _ (by norm_num)
  · intro h
    exact ⟨Nat.mod_eq_of_lt (by omega), Nat.mod_eq_of_lt h⟩

/-- **Stepping in words agrees with the exact pair modulo `2 ^ 64`**, steps can be taken in any
portions, and the words are the numbers themselves exactly up to the index that is named for it. -/
theorem advance_exact :
    (∀ k : UInt64, Pair.start.advance k = wrapped k ∧ (wrapped k).t1.toNat = fib k.toNat % 2 ^ 64 ∧
      (wrapped k).t2.toNat = fib (k.toNat + 1) % 2 ^ 64) ∧
    (∀ (p : Pair) (a b : UInt64), a.toNat + b.toNat < 2 ^ 64 →
      (p.advance a).advance b = p.advance (a + b)) ∧
    (∀ p : Pair, p.advance 1 = p.step) ∧
    ∀ k : UInt64, (Pair.start.advance k).t1.toNat = fib k.toNat ∧
      (Pair.start.advance k).t2.toNat = fib (k.toNat + 1) ↔ k.toNat ≤ maxExactIndex := by
  refine ⟨?_, ?_, ?_, ?_⟩
  · intro k
    rw [advance_start, wrapped_eq]
    exact ⟨rfl, UInt64.toNat_ofNat', UInt64.toNat_ofNat'⟩
  · intro p a b h
    exact advance_advance p h
  · intro p
    rfl
  · intro k
    rw [advance_start]
    exact toNat_wordsAt_iff k.toNat

/-- The longest walk there is, taken in two portions from a pair that wraps at once. -/
theorem advance_exact_of_longest :
    (0x8000000000000000 : UInt64).toNat + (0x7fffffffffffffff : UInt64).toNat < 2 ^ 64 ∧
      ((Pair.mk 1 0xffffffffffffffff).advance 0x8000000000000000).advance 0x7fffffffffffffff =
        (Pair.mk 1 0xffffffffffffffff).advance 0xffffffffffffffff :=
  ⟨by decide, advance_exact.2.1 _ _ _ (by decide)⟩

end Stopwatch.Fibonacci
