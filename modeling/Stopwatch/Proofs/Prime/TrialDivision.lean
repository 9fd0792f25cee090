import Mathlib.Data.Nat.Prime.Basic
import Stopwatch.Prime
import Stopwatch.Proofs.Prime.Root

/-!
# Trial division decides primality

Each loop is described first over the natural numbers, by what it has looked at when it answers
`true` (`noDivisorFrom_iff`, `noDivisorUpTo_iff`), and then compared with `Nat.Prime`.

The wheel tries `x - 1` and `x + 1` for the multiples `x` of six with `x - 1` up to the root. Two
facts make this a test of primality.

* A composite number that 2 and 3 do not divide has a least factor next to a multiple of six, and
  that factor is at most the root, so none is missed.
* The last step may try a divisor above the root. It would have to be the number itself, and then
  the number would be less than the square of the smaller neighbour.

`WheelReaches` and `TrialReaches` are the values that the counters of the two loops take, as words.
-/

namespace Stopwatch.Prime

/-! ## The wheel over words -/

variable {n limit x : UInt64}

/-- While the loop goes on, its counter and the neighbours of it are far from both ends of the
words. -/
theorem counter_bounds (h : limit ≤ maxRoot) (hx : x - 1 ≤ limit) :
    1 ≤ x.toNat ∧ x.toNat ≤ limit.toNat + 1 ∧ limit.toNat ≤ 4294967295 := by
  have h1 := UInt64.le_iff_toNat_le.mp h
  have h2 := UInt64.le_iff_toNat_le.mp hx
  have h3 := x.toNat_lt
  rw [UInt64.toNat_sub, UInt64.toNat_one] at h2
  rw [toNat_maxRoot] at h1
  omega

theorem toNat_sub_one (hx : 1 ≤ x.toNat) : (x - 1).toNat = x.toNat - 1 := by
  have h1 : (1 : UInt64) ≤ x := by
    rw [UInt64.le_iff_toNat_le, UInt64.toNat_one]
    exact hx
  rw [UInt64.toNat_sub_of_le _ _ h1, UInt64.toNat_one]

theorem toNat_add_small {k : UInt64} (hx : x.toNat + k.toNat < 2 ^ 64) :
    (x + k).toNat = x.toNat + k.toNat := by
  rw [UInt64.toNat_add, Nat.mod_eq_of_lt hx]

theorem toNat_add_six (hx : x.toNat ≤ 4294967302) : (x + 6).toNat = x.toNat + 6 :=
  toNat_add_small (show x.toNat + 6 < 2 ^ 64 by omega)

/-- The guard of the loop over the natural numbers. -/
theorem sub_one_le_iff (hx : 1 ≤ x.toNat) : x - 1 ≤ limit ↔ x.toNat - 1 ≤ limit.toNat := by
  rw [UInt64.le_iff_toNat_le, toNat_sub_one hx]

theorem mod_beq_zero_iff (n d : UInt64) : (n % d == 0) = true ↔ d.toNat ∣ n.toNat := by
  rw [beq_iff_eq, ← UInt64.toNat_inj, UInt64.toNat_mod, UInt64.toNat_zero]
  exact (Nat.dvd_iff_mod_eq_zero).symm

/-- What one round looks at. -/
theorem neighbour_divides_iff (h : limit ≤ maxRoot) (hx : x - 1 ≤ limit) :
    (n % (x - 1) == 0 || n % (x + 1) == 0) = true ↔ x.toNat - 1 ∣ n.toNat ∨
      x.toNat + 1 ∣ n.toNat := by
  obtain ⟨h1, h2, h3⟩ := counter_bounds h hx
  rw [Bool.or_eq_true, mod_beq_zero_iff, mod_beq_zero_iff, toNat_sub_one h1,
    toNat_add_small (by rw [UInt64.toNat_one]; omega), UInt64.toNat_one]

/-- The loop answers `true` exactly if no neighbour of a multiple of six that it gets to divides
`n`. -/
theorem noDivisorFrom_iff (h : limit ≤ maxRoot) (hx : 1 ≤ x.toNat) :
    noDivisorFrom n limit h x = true ↔
      ∀ j, x.toNat - 1 + 6 * j ≤ limit.toNat →
        ¬ x.toNat - 1 + 6 * j ∣ n.toNat ∧ ¬ x.toNat + 1 + 6 * j ∣ n.toNat := by
  fun_induction noDivisorFrom n limit h x with
  | case1 x hg hd =>
    rw [neighbour_divides_iff h hg] at hd
    simp only [Bool.false_eq_true, false_iff]
    intro hall
    obtain ⟨ha, hb⟩ := hall 0 ((sub_one_le_iff hx).mp hg)
    rcases hd with hd | hd
    · exact ha hd
    · exact hb hd
  | case2 x hg hd ih =>
    obtain ⟨_, h2, h3⟩ := counter_bounds h hg
    have h6 : (x + 6).toNat = x.toNat + 6 := toNat_add_six (by omega)
    rw [neighbour_divides_iff h hg, not_or] at hd
    rw [ih (by omega), h6]
    -- The round at hand is `j = 0`, and the rest are the rounds from `x + 6` on.
    constructor
    · intro hall j hj
      cases j with
      | zero => exact hd
      | succ j =>
        rw [show x.toNat - 1 + 6 * (j + 1) = x.toNat + 6 - 1 + 6 * j by omega] at hj ⊢
        rw [show x.toNat + 1 + 6 * (j + 1) = x.toNat + 6 + 1 + 6 * j by omega]
        exact hall j hj
    · intro hall j hj
      rw [show x.toNat + 6 - 1 + 6 * j = x.toNat - 1 + 6 * (j + 1) by omega] at hj ⊢
      rw [show x.toNat + 6 + 1 + 6 * j = x.toNat + 1 + 6 * (j + 1) by omega]
      exact hall (j + 1) hj
  | case3 x hg =>
    rw [sub_one_le_iff hx] at hg
    simp only [true_iff]
    intro j hj
    omega

/-! ## The wheel and primality -/

/-- A prime other than 2 and 3 is next to a multiple of six. -/
theorem exists_neighbour_of_prime {p : ℕ} (hp : p.Prime) (h2 : p ≠ 2) (h3 : p ≠ 3) :
    ∃ j, p = 5 + 6 * j ∨ p = 7 + 6 * j := by
  have hd2 : ¬ 2 ∣ p := fun hd => h2 ((Nat.prime_dvd_prime_iff_eq Nat.prime_two hp).mp hd).symm
  have hd3 : ¬ 3 ∣ p := fun hd => h3 ((Nat.prime_dvd_prime_iff_eq Nat.prime_three hp).mp hd).symm
  have h1 := hp.two_le
  have h5 : p % 6 = 5 ∨ p % 6 = 1 := by omega
  rcases h5 with h5 | h5
  · exact ⟨(p - 5) / 6, by omega⟩
  · exact ⟨(p - 7) / 6, by omega⟩

/-- The wheel finds a divisor of every composite number, and none of a prime, although its last step
may go beyond the root. -/
theorem prime_iff_wheel {m : ℕ} (hm : 4 ≤ m) (h2 : ¬ 2 ∣ m) (h3 : ¬ 3 ∣ m) :
    m.Prime ↔ ∀ j, 5 + 6 * j ≤ Nat.sqrt m → ¬ 5 + 6 * j ∣ m ∧ ¬ 7 + 6 * j ∣ m := by
  constructor
  · intro hp j hj
    -- A divisor would be the prime itself, but five times the smaller neighbour does not exceed the
    -- prime.
    have hbig : 5 * (5 + 6 * j) ≤ m :=
      Nat.le_trans (Nat.mul_le_mul_right _ (by omega)) (Nat.le_sqrt.mp hj)
    constructor
    · intro hd
      rcases (Nat.dvd_prime hp).mp hd with he | he <;> omega
    · intro hd
      rcases (Nat.dvd_prime hp).mp hd with he | he <;> omega
  · intro hall
    by_contra hp
    -- The least factor is at most the root, so the wheel gets to it.
    have hf := Nat.minFac_prime (show m ≠ 1 by omega)
    have hfd := Nat.minFac_dvd m
    have hroot : m.minFac ≤ Nat.sqrt m := by
      have hsq := Nat.minFac_sq_le_self (by omega) hp
      rw [Nat.le_sqrt, ← Nat.pow_two]
      exact hsq
    have hf2 : m.minFac ≠ 2 := fun he => h2 (he ▸ hfd)
    have hf3 : m.minFac ≠ 3 := fun he => h3 (he ▸ hfd)
    obtain ⟨j, hj | hj⟩ := exists_neighbour_of_prime hf hf2 hf3
    · exact (hall j (by omega)).1 (hj ▸ hfd)
    · exact (hall j (by omega)).2 (hj ▸ hfd)

theorem isTwoOrThree_iff (n : UInt64) : (n == 2 || n == 3) = true ↔ n.toNat = 2 ∨ n.toNat = 3 := by
  rw [Bool.or_eq_true, beq_iff_eq, beq_iff_eq, ← UInt64.toNat_inj, ← UInt64.toNat_inj]
  exact Iff.rfl

theorem isScreened_iff (n : UInt64) :
    (n ≤ 1 || n % 2 == 0 || n % 3 == 0) = true ↔ (n.toNat ≤ 1 ∨ 2 ∣ n.toNat) ∨ 3 ∣ n.toNat := by
  rw [Bool.or_eq_true, Bool.or_eq_true, mod_beq_zero_iff, mod_beq_zero_iff,
    decide_eq_true_eq, UInt64.le_iff_toNat_le]
  exact Iff.rfl

theorem isPrimeWord_iff (n : UInt64) : isPrimeWord n = true ↔ n.toNat.Prime := by
  unfold isPrimeWord
  split
  · next h =>
    rw [isTwoOrThree_iff] at h
    simp only [true_iff]
    rcases h with h | h
    · rw [h]
      exact Nat.prime_two
    · rw [h]
      exact Nat.prime_three
  · next h =>
    rw [isTwoOrThree_iff, not_or] at h
    split
    · next h' =>
      rw [isScreened_iff] at h'
      simp only [Bool.false_eq_true, false_iff]
      intro hp
      rcases h' with (h' | h') | h'
      · exact absurd hp.two_le (by omega)
      · exact h.1 ((Nat.prime_dvd_prime_iff_eq Nat.prime_two hp).mp h').symm
      · exact h.2 ((Nat.prime_dvd_prime_iff_eq Nat.prime_three hp).mp h').symm
    · next h' =>
      rw [isScreened_iff, not_or, not_or] at h'
      rw [noDivisorFrom_iff (isqrt_le n) (by decide),
        prime_iff_wheel (by omega) h'.1.2 h'.2, toNat_isqrt]
      rfl

/-! ## Plain trial division -/

section Trial

variable {n d : Int64}

/-- Quotients by positive numbers are exact. -/
theorem toInt_div_of_pos (hd : 0 < d.toInt) : (n / d).toInt = n.toInt.tdiv d.toInt := by
  refine Int64.toInt_div_of_ne_right n d ?_
  rintro rfl
  exact absurd hd (by decide)

/-- The guard of the loop over the natural numbers. -/
theorem le_div_iff {m k : ℕ} (hn : n.toInt = m) (hd : d.toInt = k) (hk : 0 < k) :
    d ≤ n / d ↔ k * k ≤ m := by
  rw [Int64.le_iff_toInt_le, toInt_div_of_pos (by omega), hn, hd, ← Int.ofNat_tdiv, Int.ofNat_le]
  exact Nat.le_div_iff_mul_le hk

theorem mod_beq_zero_iff_of_toInt {m k : ℕ} (hn : n.toInt = m) (hd : d.toInt = k) :
    (n % d == 0) = true ↔ k ∣ m := by
  rw [beq_iff_eq, ← Int64.toInt_inj, Int64.toInt_mod, hn, hd, ← Int.ofNat_tmod, Int64.toInt_zero,
    Int.natCast_eq_zero]
  exact (Nat.dvd_iff_mod_eq_zero).symm

/-- A counter that the loop goes on from is not the greatest number. -/
theorem toInt_succ_of_le_div (h : d ≤ n / d) : (d + 1).toInt = d.toInt + 1 := by
  refine toInt_add_one ?_
  rintro rfl
  exact absurd (div_maxValue_lt n) (Int64.not_lt.mpr h)

/-- The loop answers `true` exactly if no number from `k` up to the root divides `m`. -/
theorem noDivisorUpTo_iff {m k : ℕ} (hn : n.toInt = m) (hd : d.toInt = k) (hk : 0 < k) :
    noDivisorUpTo n d = true ↔ ∀ e, k ≤ e → e * e ≤ m → ¬ e ∣ m := by
  fun_induction noDivisorUpTo n d generalizing k with
  | case1 d hg hmod =>
    simp only [Bool.false_eq_true, false_iff]
    intro hall
    exact hall k (Nat.le_refl k) ((le_div_iff hn hd hk).mp hg)
      ((mod_beq_zero_iff_of_toInt hn hd).mp hmod)
  | case2 d hg hmod ih =>
    have hd' : (d + 1).toInt = ((k + 1 : ℕ) : ℤ) := by
      rw [toInt_succ_of_le_div hg, hd, Int.natCast_add, Int.natCast_one]
    rw [mod_beq_zero_iff_of_toInt hn hd] at hmod
    rw [ih hd' (Nat.succ_pos k)]
    constructor
    · intro hall e hke hem
      rcases Nat.eq_or_lt_of_le hke with he | he
      · exact he ▸ hmod
      · exact hall e he hem
    · intro hall e hke hem
      exact hall e (by omega) hem
  | case3 d hg =>
    rw [le_div_iff hn hd hk] at hg
    simp only [true_iff]
    intro e hke hem
    exact absurd (Nat.le_trans (Nat.mul_le_mul hke hke) hem) hg

end Trial

theorem prime_iff_no_divisor {m : ℕ} (hm : 2 ≤ m) : m.Prime ↔ ∀ e, 2 ≤ e → e * e ≤ m → ¬ e ∣ m := by
  rw [Nat.prime_def_le_sqrt]
  simp only [hm, true_and, Nat.le_sqrt]

/-! ## Signed numbers -/

/-- A signed number is prime. -/
def IsPrimeInt (n : Int64) : Prop := ∃ p : ℕ, p.Prime ∧ n.toInt = p

theorem isPrimeInt_iff {n : Int64} {m : ℕ} (h : n.toInt = m) : IsPrimeInt n ↔ m.Prime := by
  constructor
  · rintro ⟨p, hp, he⟩
    rw [h, Int.ofNat_inj] at he
    exact he ▸ hp
  · intro hp
    exact ⟨m, hp, h⟩

theorem not_isPrimeInt_of_lt {n : Int64} (h : n.toInt < 2) : ¬ IsPrimeInt n := by
  rintro ⟨p, hp, he⟩
  have := hp.two_le
  omega

theorem isPrime_iff (n : Int64) : isPrime n = true ↔ IsPrimeInt n := by
  unfold isPrime
  split
  · next h =>
    rw [Int64.le_iff_toInt_le, Int64.toInt_one] at h
    simp only [Bool.false_eq_true, false_iff]
    exact not_isPrimeInt_of_lt (by omega)
  · next h =>
    rw [Int64.le_iff_toInt_le, Int64.toInt_one] at h
    have h0 : 0 ≤ n := by
      rw [Int64.le_iff_toInt_le, Int64.toInt_zero]
      omega
    have hn : n.toInt = (n.toUInt64.toNat : ℤ) := by
      rw [Int64.toNat_toUInt64_of_le h0]
      exact (Int.toNat_of_nonneg (by omega)).symm
    rw [isPrimeWord_iff, isPrimeInt_iff hn]

theorem isPrimeByTrial_iff (n : Int64) : isPrimeByTrial n = true ↔ IsPrimeInt n := by
  unfold isPrimeByTrial
  split
  · next h =>
    rw [Int64.lt_iff_toInt_lt, show (2 : Int64).toInt = 2 from rfl] at h
    simp only [Bool.false_eq_true, false_iff]
    exact not_isPrimeInt_of_lt h
  · next h =>
    rw [Int64.lt_iff_toInt_lt, show (2 : Int64).toInt = 2 from rfl] at h
    obtain ⟨m, hm⟩ := Int.eq_ofNat_of_zero_le (show 0 ≤ n.toInt by omega)
    rw [noDivisorUpTo_iff hm (show (2 : Int64).toInt = ((2 : ℕ) : ℤ) from rfl) (by decide),
      isPrimeInt_iff hm, prime_iff_no_divisor (by omega)]

/-! ## The counters do not wrap -/

/-- The values that the counter of the wheel takes while it tests a word. -/
inductive WheelReaches (n : UInt64) : UInt64 → Prop
  | start : WheelReaches n 6
  | next {x : UInt64} : WheelReaches n x → x - 1 ≤ isqrt n → WheelReaches n (x + 6)

/-- The values that the counter of plain trial division takes while it tests a number. -/
inductive TrialReaches (n : Int64) : Int64 → Prop
  | start : TrialReaches n 2
  | next {d : Int64} : TrialReaches n d → d ≤ n / d → TrialReaches n (d + 1)

theorem WheelReaches.bounds {n x : UInt64} (h : WheelReaches n x) :
    6 ≤ x.toNat ∧ x.toNat ≤ Nat.sqrt n.toNat + 7 ∧ x.toNat ≤ 4294967302 := by
  induction h with
  | start => exact ⟨by decide, show 6 ≤ _ by omega, by decide⟩
  | next _ hg ih =>
    obtain ⟨_, h2, h3⟩ := counter_bounds (isqrt_le n) hg
    rw [toNat_isqrt] at h2 h3
    rw [toNat_add_six ih.2.2]
    omega

theorem TrialReaches.two_le {n d : Int64} (h : TrialReaches n d) : 2 ≤ d.toInt := by
  induction h with
  | start => decide
  | next _ hg ih =>
    rw [toInt_succ_of_le_div hg]
    omega

/-- **Both predicates and their version for words decide primality**, and on the way no counter, no
neighbour of a counter and no quotient wraps. -/
theorem primality_exact :
    (∀ n : Int64, isPrime n = true ↔ ∃ p : ℕ, p.Prime ∧ n.toInt = p) ∧
    (∀ n : Int64, isPrimeByTrial n = true ↔ ∃ p : ℕ, p.Prime ∧ n.toInt = p) ∧
    (∀ n : UInt64, isPrimeWord n = true ↔ n.toNat.Prime) ∧
    (∀ n x : UInt64, WheelReaches n x →
      (x - 1).toNat + 1 = x.toNat ∧ (x + 1).toNat = x.toNat + 1 ∧ (x + 6).toNat = x.toNat + 6) ∧
    (∀ n d : Int64, TrialReaches n d →
      (n / d).toInt = n.toInt.tdiv d.toInt ∧ (d ≤ n / d → (d + 1).toInt = d.toInt + 1)) := by
  refine ⟨isPrime_iff, isPrimeByTrial_iff, isPrimeWord_iff, ?_, ?_⟩
  · intro n x h
    obtain ⟨h1, _, h3⟩ := h.bounds
    refine ⟨?_, toNat_add_small ?_, toNat_add_six h3⟩
    · rw [toNat_sub_one (by omega)]
      omega
    · rw [UInt64.toNat_one]
      omega
  · intro n d h
    have h2 := h.two_le
    exact ⟨toInt_div_of_pos (by omega), toInt_succ_of_le_div⟩

end Stopwatch.Prime
