import Stopwatch.Prime.Loose
import Stopwatch.Proofs.Float.View
import Stopwatch.Proofs.Prime.TrialDivision

/-!
# Primality of loosely typed numbers

The answer for a native number depends only on its exact value (`loose_isPrime_iff`). Whole numbers
of 32 bits and more are tested as they are. The others pass through a float, and none of them is
changed by that: a small whole number has room in the mantissa, and a float of 32 bits is also one
of 64 bits. A float that is whole and below `2 ^ 63` becomes the number that it is; one from there
on has a mantissa too short for an odd number (`lt_of_prime`).
-/

namespace Stopwatch.Prime

open Binary Rounding

variable {m p : ℕ} {e : ℤ}

/-! ## Floats -/

/-- No float from `2 ^ 53` on is a prime number: it is even. -/
theorem lt_of_prime (hm : m < 2 ^ 53) (hp : p.Prime) (hvalue : (m : ℚ) * 2 ^ e = p) :
    p < 2 ^ 53 := by
  rcases le_or_gt e 0 with he | he
  · have hle : (p : ℚ) ≤ m := by
      rw [← hvalue]
      exact mul_le_of_le_one_right (Nat.cast_nonneg m) (zpow_le_one_of_nonpos₀ one_le_two he)
    have : p ≤ m := by exact_mod_cast hle
    omega
  · obtain ⟨k, rfl⟩ : ∃ k : ℕ, e = ((k + 1 : ℕ) : ℤ) := ⟨e.toNat - 1, by omega⟩
    have hnat : m * 2 ^ (k + 1) = p := by
      rw [zpow_natCast] at hvalue
      exact_mod_cast hvalue
    have heven : 2 ∣ p := hnat ▸ dvd_mul_of_dvd_right (dvd_pow_self 2 k.succ_ne_zero) m
    have htwo := (Nat.prime_dvd_prime_iff_eq Nat.prime_two hp).mp heven
    omega

theorem value_two_pow : value 9223372036854775808.0 = 2 ^ 63 := by decide +kernel

/-- What is asked of a float before it is taken for a whole number. -/
theorem isPrimeFloat_eq_true_iff {x : Float} {negative : Bool}
    (hview : view x = .finite negative m e) :
    isPrimeFloat x = true ↔ (m <<< e.toNat) % (1 <<< (-e).toNat) = 0 ∧ 1 < number negative m e ∧
      number negative m e < 2 ^ 63 ∧ isPrime (truncInt64 x) = true := by
  have hexact := worth?_view x
  rw [hview, worth?] at hexact
  have hfin : x.isFinite = true := by
    by_contra hfin
    rw [if_neg hfin] at hexact
    exact absurd hexact (by simp)
  rw [if_pos hfin] at hexact
  have hvalue : value x = number negative m e := (Option.some.inj hexact).symm
  have hnum := (isFinite_iff.mp hfin).1
  have hone : x ≤ 1.0 ↔ number negative m e ≤ 1 := by rw [le_iff hnum rfl, value_one, hvalue]
  have htop : 9223372036854775808.0 ≤ x ↔ 2 ^ 63 ≤ number negative m e := by
    rw [le_iff rfl hnum, value_two_pow, hvalue]
  simp only [isPrimeFloat, hview]
  simp [hone, htop, and_assoc]

/-- **A float is prime exactly if its value is.** -/
theorem isPrimeFloat_iff (x : Float) : isPrimeFloat x = true ↔ ∃ p :
    ℕ, p.Prime ∧ (view x).worth? = some (p : ℚ) := by
  cases hview : view x with
  | nan => simp [isPrimeFloat, hview, worth?]
  | infinite negative => simp [isPrimeFloat, hview, worth?]
  | finite negative m e =>
    rw [isPrimeFloat_eq_true_iff hview]
    simp only [worth?, Option.some.injEq]
    have hnonneg : (0 : ℚ) ≤ m * 2 ^ e := by positivity
    cases negative with
    | true =>
      -- A number that is not above zero is neither above one nor prime.
      have hneg : number true m e ≤ 0 := neg_nonpos.mpr hnonneg
      constructor
      · rintro ⟨-, hone, -⟩
        exact absurd hone (by linarith)
      · rintro ⟨p, hp, hvalue⟩
        have : (0 : ℚ) < p := by exact_mod_cast hp.pos
        exact absurd hvalue (by linarith)
    | false =>
      have hnumber : number false m e = m * 2 ^ e := rfl
      rw [hnumber]
      constructor
      · rintro ⟨hwhole, -, hlt, hprime⟩
        have hvalue : (m : ℚ) * 2 ^ e = ((m <<< e.toNat) >>> (-e).toNat : ℕ) :=
          mul_zpow_eq_natCast_iff.mpr ⟨hwhole, rfl⟩
        rw [hvalue] at hlt
        have hint := toInt_truncInt64 hview hvalue (by exact_mod_cast hlt)
        exact ⟨_, (isPrimeInt_iff hint).mp ((isPrime_iff _).mp hprime), hvalue⟩
      · rintro ⟨p, hp, hvalue⟩
        have hlt : p < 2 ^ 63 :=
          (lt_of_prime (bounds_of_view hview).1 hp hvalue).trans (by norm_num)
        have hint := toInt_truncInt64 hview hvalue hlt
        refine ⟨(mul_zpow_eq_natCast_iff.mp hvalue).1, ?_, ?_,
          (isPrime_iff _).mpr ((isPrimeInt_iff hint).mpr hp)⟩
        · rw [hvalue]
          exact_mod_cast hp.one_lt
        · rw [hvalue]
          exact_mod_cast hlt

/-! ## Values of any kind -/

namespace Loose

/-- The number that a value is, if it is one. -/
def worth? : Loose → Option ℚ
  | float x => if x.isFinite then some (value x) else none
  | single x => if x.isFinite then some (worth x.toModel.unpack) else none
  | int i => some i.toInt
  | int32 i => some i.toInt
  | int16 i => some i.toInt
  | int8 i => some i.toInt
  | word n => some n.toNat
  | word32 n => some n.toNat
  | word16 n => some n.toNat
  | word8 n => some n.toNat
  | bool b => some (if b then 1 else 0)
  | big (some i) => some i
  | big none | nothing | text _ | other => none

/-- A number as such: neither text, nor a whole number above the greatest word. -/
def IsNative : Loose → Prop
  | nothing | text _ | other => False
  | big (some i) => i < 2 ^ 64
  | _ => True

/-- The value is said to be prime exactly if the number that it is is prime. -/
def AnswersExactly (v : Loose) : Prop := v.isPrime = true ↔ ∃ p :
    ℕ, p.Prime ∧ v.worth? = some (p : ℚ)

/-- A value may pass through a float that stands for the same number. -/
theorem answersExactly_of_float {v : Loose} {x : Float} (hv : v.isPrime = isPrimeFloat x)
    (hexact : (view x).worth? = v.worth?) : v.AnswersExactly := by
  rw [AnswersExactly, hv, ← hexact]
  exact isPrimeFloat_iff x

theorem answersExactly_of_int {v : Loose} {i : Int64} (hv : v.isPrime = Prime.isPrime i)
    (hexact : v.worth? = some (i.toInt : ℚ)) : v.AnswersExactly := by
  rw [AnswersExactly, hv, hexact, isPrime_iff, IsPrimeInt]
  simp only [Option.some.injEq]
  norm_cast

theorem answersExactly_of_word {v : Loose} {n : UInt64} (hv : v.isPrime = isPrimeWord n)
    (hexact : v.worth? = some (n.toNat : ℚ)) : v.AnswersExactly := by
  rw [AnswersExactly, hv, hexact, isPrimeWord_iff]
  simp

/-- A small whole number is a float. -/
theorem answersExactly_of_small_int {v : Loose} {i : Int64} (h : |i.toInt| ≤ 2 ^ 53)
    (hv : v.isPrime = isPrimeFloat (ofInt64 i)) (hexact : v.worth? = some (i.toInt : ℚ)) :
    v.AnswersExactly := by
  obtain ⟨hfin, hvalue⟩ := (rounds_ofInt64 i).exact (onGrid_int h)
  exact answersExactly_of_float hv (by rw [worth?_view, if_pos hfin, hvalue, hexact])

theorem answersExactly_of_small_word {v : Loose} {n : UInt64} (h : n.toNat ≤ 2 ^ 53)
    (hv : v.isPrime = isPrimeFloat n.toFloat) (hexact : v.worth? = some (n.toNat : ℚ)) :
    v.AnswersExactly := by
  obtain ⟨hfin, hvalue⟩ := (rounds_toFloat_word n).exact (onGrid_nat h)
  exact answersExactly_of_float hv (by rw [worth?_view, if_pos hfin, hvalue, hexact])

theorem answersExactly_big {i : ℤ} (h : i < 2 ^ 64) : (big (some i)).AnswersExactly := by
  by_cases hpos : i ≤ 0
  · have hfalse : (big (some i)).isPrime = false := by rw [Loose.isPrime, if_pos hpos]
    rw [AnswersExactly, hfalse]
    refine iff_of_false (by simp) ?_
    rintro ⟨p, hp, hexact⟩
    have hi : i = p := by exact_mod_cast Option.some.inj hexact
    have := hp.pos
    omega
  · obtain ⟨n, rfl⟩ := Int.eq_ofNat_of_zero_le (show 0 ≤ i by omega)
    have hlt : n < 2 ^ 64 := by omega
    have hword : (UInt64.ofNat n).toNat = n := UInt64.toNat_ofNat_of_lt' hlt
    refine answersExactly_of_word (n := UInt64.ofNat n) ?_ ?_
    · rw [Loose.isPrime, if_neg hpos, if_pos (by exact_mod_cast hlt), Int.toNat_natCast]
    · rw [hword, worth?, Int.cast_natCast]

/-- One case for each type of number. -/
theorem answersExactly (v : Loose) (h : v.IsNative) : v.AnswersExactly := by
  cases v with
  | nothing => exact h.elim
  | float x => exact answersExactly_of_float rfl (worth?_view x)
  | single x => exact answersExactly_of_float rfl ((worth?_ofSingle x).trans (worth?_viewSingle x))
  | int i => exact answersExactly_of_int rfl rfl
  | int32 i => exact answersExactly_of_int rfl (by rw [Int32.toInt_toInt64]; rfl)
  | int16 i =>
    have hint : i.toInt64.toInt = i.toInt := Int16.toInt_toInt64 i
    have hlow := i.le_toInt
    have hhigh := i.toInt_lt
    exact answersExactly_of_small_int (by rw [hint, abs_le]; omega) rfl (by rw [hint]; rfl)
  | int8 i =>
    have hint : i.toInt64.toInt = i.toInt := Int8.toInt_toInt64 i
    have hlow := i.le_toInt
    have hhigh := i.toInt_lt
    exact answersExactly_of_small_int (by rw [hint, abs_le]; omega) rfl (by rw [hint]; rfl)
  | word n => exact answersExactly_of_word rfl rfl
  | word32 n => exact answersExactly_of_word rfl (by rw [UInt32.toNat_toUInt64]; rfl)
  | word16 n =>
    have hnat : n.toUInt64.toNat = n.toNat := UInt16.toNat_toUInt64 n
    have hlt := n.toNat_lt
    exact answersExactly_of_small_word (by rw [hnat]; omega) rfl (by rw [hnat]; rfl)
  | word8 n =>
    have hnat : n.toUInt64.toNat = n.toNat := UInt8.toNat_toUInt64 n
    have hlt := n.toNat_lt
    exact answersExactly_of_small_word (by rw [hnat]; omega) rfl (by rw [hnat]; rfl)
  | bool b =>
    exact answersExactly_of_float (x := if b then 1.0 else 0.0) rfl (by cases b <;> decide +kernel)
  | big i =>
    cases i with
    | none => simp [AnswersExactly, Loose.isPrime, worth?]
    | some i => exact answersExactly_big h
  | text t => exact h.elim
  | other => exact h.elim

end Loose

/-- **A native number is prime exactly if its exact value is**, whatever its type, so two of them
that are equal get the same answer. -/
theorem loose_isPrime_iff :
    (∀ v : Loose, v.IsNative → (v.isPrime = true ↔ ∃ p : ℕ, p.Prime ∧ v.worth? = some (p : ℚ))) ∧
      ∀ v w : Loose, v.IsNative → w.IsNative → v.worth? = w.worth? → v.isPrime = w.isPrime := by
  refine ⟨Loose.answersExactly, fun v w hv hw hexact => ?_⟩
  have hleft := Loose.answersExactly v hv
  have hright := Loose.answersExactly w hw
  rw [Loose.AnswersExactly, hexact] at hleft
  exact Bool.eq_iff_iff.mpr (hleft.trans hright.symm)

/-- The greatest prime number of 24 bits as a float of 32 bits, and the first power of two that is
too great for a signed number. -/
theorem loose_isPrime_of_boundaries :
    (Loose.single 16777213.0).isPrime = true ∧
      (Loose.float 9223372036854775808.0).isPrime = (Loose.word 9223372036854775808).isPrime := by
  obtain ⟨hprime, hsame⟩ := loose_isPrime_iff
  constructor
  · exact (hprime (.single 16777213.0) trivial).mpr ⟨16777213, by norm_num, by decide +kernel⟩
  · exact hsame (.float 9223372036854775808.0) (.word 9223372036854775808) trivial
      trivial (by decide +kernel)

end Stopwatch.Prime
