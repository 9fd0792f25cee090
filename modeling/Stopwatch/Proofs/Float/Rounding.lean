import Mathlib

/-!
# Rounding to 53 bits

The arithmetic of floats computes an exact result as a mantissa, an exponent and a note on the
digits cut off, and rounds it by shifting the mantissa to the exponent that the format asks for.
This module says what comes out in exact numbers: `roundWithAccuracy_eq` names the rounded mantissa
`N` and its exponent `t`, and the exact magnitude lies between its neighbours among the multiples of
`2 ^ t`.

From this alone follows what the rest of the theory uses, `le_of_onGrid` and `ge_of_onGrid`:
rounding never crosses a number that has a mantissa of at most 53 bits. Which of the two neighbours
is taken plays no part.
-/

open Float.Model Float.Model.UnpackedFloat

namespace Stopwatch.Rounding

/-! ## Brackets

An extended mantissa stands for a number that is the mantissa itself if nothing was cut off, and
lies strictly between the mantissa and the next one otherwise.
-/

/-- The number `v` lies where a mantissa says, something having been cut off or not. -/
def Brackets (m : ℕ) (cut : Bool) (v : ℚ) : Prop :=
  if cut then (m : ℚ) < v ∧ v < m + 1 else v = m

/-- True if something was cut off. -/
def isCut : Accuracy → Bool
  | .exact => false
  | .inexact _ => true

/-- The number `v` lies where an extended mantissa says. -/
def Stands (em : ExtendedMantissa) (v : ℚ) : Prop :=
  Brackets em.mantissa (em.roundBit || em.stickyBit) v

theorem stands_ofMantissaAndAccuracy {m : ℕ} {a : Accuracy} {v : ℚ} (h : Brackets m (isCut a) v) :
    Stands (.ofMantissaAndAccuracy m a) v := by
  cases a with
  | exact => exact h
  | inexact o => cases o <;> exact h

theorem stands_shiftRightOne {em : ExtendedMantissa} {v : ℚ} (h : Stands em v) :
    Stands em.shiftRightOne (v / 2) := by
  obtain ⟨m, r, s⟩ := em
  have hm : ((m / 2 : ℕ) : ℚ) * 2 + ((m % 2 : ℕ) : ℚ) = m := by
    exact_mod_cast Nat.div_add_mod' m 2
  simp only [Stands, Brackets, ExtendedMantissa.shiftRightOne] at h ⊢
  rcases Nat.mod_two_eq_zero_or_one m with h2 | h2
  · rw [h2, Nat.cast_zero] at hm
    simp only [h2, bne_self_eq_false, Bool.false_or]
    split at h
    · next hc =>
      rw [if_pos hc]
      constructor <;> linarith [h.1, h.2]
    · next hc =>
      rw [if_neg hc]
      linarith
  · rw [h2, Nat.cast_one] at hm
    have hodd : (1 != 0) = true := rfl
    simp only [h2, hodd, Bool.true_or, if_true]
    split at h
    · constructor <;> linarith [h.1, h.2]
    · constructor <;> linarith

theorem stands_shiftRight {em : ExtendedMantissa} {v : ℚ} (h : Stands em v) (k : ℕ) :
    Stands (em >>> k) (v / 2 ^ k) := by
  change Stands (k.repeat ExtendedMantissa.shiftRightOne em) _
  induction k with
  | zero => simpa [Nat.repeat] using h
  | succ k ih =>
    rw [Nat.repeat, pow_succ, ← div_div]
    exact stands_shiftRightOne ih

/-- Rounding a mantissa does not cross a whole number, upwards. -/
theorem roundedMantissa_le {em : ExtendedMantissa} {v : ℚ} (h : Stands em v) {k : ℤ} (hk : v ≤ k) :
    (em.roundedMantissa : ℤ) ≤ k := by
  obtain ⟨m, r, s⟩ := em
  have key : ∀ c : Bool, Brackets m c v → (m : ℤ) ≤ k ∧ (c = true → (m : ℤ) + 1 ≤ k) := by
    intro c hc
    cases c with
    | false =>
      simp only [Brackets, Bool.false_eq_true, if_false] at hc
      refine ⟨?_, fun hf => absurd hf (by decide)⟩
      rw [hc] at hk
      exact_mod_cast hk
    | true =>
      simp only [Brackets, if_true] at hc
      have hlt : (m : ℤ) < k := by
        have : (m : ℚ) < k := lt_of_lt_of_le hc.1 hk
        exact_mod_cast this
      exact ⟨by omega, fun _ => by omega⟩
  obtain ⟨h1, h2⟩ := key _ h
  cases r <;> cases s <;>
    simp only [ExtendedMantissa.roundedMantissa, ExtendedMantissa.accuracy,
      Accuracy.roundToNearestEven, Bool.or_false, Bool.or_true, Bool.false_eq_true, false_implies,
      true_implies] at h2 ⊢ <;>
    omega

/-- Rounding a mantissa does not cross a whole number, downwards. -/
theorem le_roundedMantissa {em : ExtendedMantissa} {v : ℚ} (h : Stands em v)
    {k : ℤ} (hk : (k : ℚ) ≤ v) :
    k ≤ em.roundedMantissa := by
  obtain ⟨m, r, s⟩ := em
  have hm : k ≤ m := by
    simp only [Stands, Brackets] at h
    split at h
    · have : (k : ℚ) < m + 1 := lt_of_le_of_lt hk h.2
      have : k < m + 1 := by exact_mod_cast this
      omega
    · rw [h] at hk
      exact_mod_cast hk
  cases r <;> cases s <;>
    simp only [ExtendedMantissa.roundedMantissa, ExtendedMantissa.accuracy,
      Accuracy.roundToNearestEven] <;>
    omega

/-! ## The exponent of the result -/

/-- The exponent that a mantissa and an exponent are brought to: the mantissa gets 53 bits, unless
the exponent would fall below the least one. -/
def target (m : ℕ) (e : ℤ) : ℤ := max (m.log2 + 1 + e - 53) (-1074)

theorem targetExponent_eq (m : ℕ) (e : ℤ) :
    Format.binary64.targetExponent (totalExponent m e) = target m e := rfl

/-- The mantissa at its exponent, once it has been rounded: a mantissa of 54 bits is a power of two.
-/
def settled (s : Sign) (n : ℕ) (t : ℤ) : UnpackedFloat :=
  if h : n = 0 then .zero s
  else if n < 2 ^ 53 then .finite s n t (Nat.pos_of_ne_zero h)
  else .finite s (2 ^ 52) (t + 1) (by decide)

theorem shiftToTargetExponent_eq {m : ℕ} {e : ℤ} (a : Accuracy) (he : e ≤ target m e) :
    shiftToTargetExponent .binary64 m e a =
      (ExtendedMantissa.ofMantissaAndAccuracy m a >>> (target m e - e).toNat, target m e) := by
  rw [shiftToTargetExponent, targetExponent_eq, shiftToExponent]
  refine Prod.ext rfl ?_
  show e + ((target m e - e).toNat : ℤ) = target m e
  omega

theorem log2_le_of_lt {m k : ℕ} (h : m < 2 ^ (k + 1)) : m.log2 ≤ k := by
  rcases Nat.eq_zero_or_pos m with hm | hm
  · rw [hm, Nat.log2_zero]
    exact Nat.zero_le k
  · exact Nat.le_of_lt_succ ((Nat.log2_lt (by omega)).mpr h)

/-- A rounded mantissa that fits is shifted no more. -/
theorem shift_exact_of_lt {n : ℕ} {t : ℤ} (hn : n < 2 ^ 53) (ht : -1074 ≤ t) :
    (shiftToTargetExponent .binary64 n t .exact).1.mantissa = n ∧
      (shiftToTargetExponent .binary64 n t .exact).2 = t := by
  have hlog := log2_le_of_lt hn
  have hk : (target n t - t).toNat = 0 := by
    unfold target
    omega
  rw [shiftToTargetExponent, targetExponent_eq, shiftToExponent, hk]
  exact ⟨rfl, Int.add_zero t⟩

/-- A rounded mantissa of 54 bits loses its last one, which is zero. -/
theorem shift_exact_of_eq {t : ℤ} (ht : -1074 ≤ t) :
    (shiftToTargetExponent .binary64 (2 ^ 53) t .exact).1.mantissa = 2 ^ 52 ∧
      (shiftToTargetExponent .binary64 (2 ^ 53) t .exact).2 = t + 1 := by
  have hk : (target (2 ^ 53) t - t).toNat = 1 := by
    unfold target
    rw [Nat.log2_two_pow]
    omega
  rw [shiftToTargetExponent, targetExponent_eq, shiftToExponent, hk]
  exact ⟨rfl, rfl⟩

theorem neg_le_target (m : ℕ) (e : ℤ) : -1074 ≤ target m e := le_max_right _ _

theorem roundWithAccuracy_eq_settled (s : Sign) {m : ℕ} {e : ℤ} (a : Accuracy) (he : e ≤ target m e)
    (hn : (ExtendedMantissa.ofMantissaAndAccuracy m a >>> (target m e - e).toNat).roundedMantissa ≤
      2 ^ 53) :
    roundWithAccuracy .binary64 s m e a =
      settled s (ExtendedMantissa.ofMantissaAndAccuracy m a >>>
        (target m e - e).toNat).roundedMantissa
        (target m e) := by
  have ht := neg_le_target m e
  rw [roundWithAccuracy, shiftToTargetExponent_eq a he]
  dsimp only
  generalize (ExtendedMantissa.ofMantissaAndAccuracy m a >>>
    (target m e - e).toNat).roundedMantissa = n at hn ⊢
  generalize target m e = t at ht ⊢
  rcases Nat.lt_or_eq_of_le hn with hlt | rfl
  · obtain ⟨h1, h2⟩ := shift_exact_of_lt hlt ht
    simp only [h1, h2, settled, hlt, if_true]
  · obtain ⟨h1, h2⟩ := shift_exact_of_eq ht
    simp only [h1, h2, settled]
    rfl

/-! ## Rounded magnitudes -/

/-- The magnitude `q` rounds to `n * 2 ^ t`: the mantissa is next to it among the whole numbers, and
has its 53 bits unless the exponent is the least one. -/
structure RoundsTo (q : ℚ) (n : ℕ) (t : ℤ) : Prop where
  nonneg : 0 ≤ q
  le_of_le : ∀ k : ℤ, q ≤ k * 2 ^ t → (n : ℤ) ≤ k
  ge_of_ge : ∀ k : ℤ, (k : ℚ) * 2 ^ t ≤ q → k ≤ n
  least : -1074 ≤ t
  size_le : n ≤ 2 ^ 53
  full : -1074 < t → (2 : ℚ) ^ 52 * 2 ^ t ≤ q

variable {m n : ℕ} {e t : ℤ} {q v g : ℚ}

theorem two_zpow_pos (e : ℤ) : (0 : ℚ) < 2 ^ e := by positivity

theorem Brackets.bounds {cut : Bool} (h : Brackets m cut v) : (m : ℚ) ≤ v ∧ v < m + 1 := by
  cases cut with
  | false =>
    simp only [Brackets, Bool.false_eq_true, if_false] at h
    constructor <;> linarith
  | true =>
    simp only [Brackets, if_true] at h
    exact ⟨h.1.le, h.2⟩

theorem div_two_pow_eq (he : e ≤ t) (v : ℚ) : v / 2 ^ (t - e).toNat = v * 2 ^ e / 2 ^ t := by
  have hk : ((t - e).toNat : ℤ) = t - e := Int.toNat_of_nonneg (by omega)
  rw [← zpow_natCast, hk, zpow_sub₀ two_ne_zero]
  field_simp

/-- The shift to the target leaves at most 53 bits. -/
theorem div_two_pow_le (h : v < m + 1) : v / 2 ^ (target m e - e).toNat ≤ ((2 ^ 53 : ℤ) : ℚ) := by
  have h1 : (m : ℚ) + 1 ≤ 2 ^ (m.log2 + 1) := by
    exact_mod_cast (Nat.lt_log2_self : m < 2 ^ (m.log2 + 1))
  have h2 : (2 : ℚ) ^ (m.log2 + 1) ≤ 2 ^ (53 + (target m e - e).toNat) := by
    refine pow_le_pow_right₀ (by norm_num) ?_
    unfold target
    omega
  rw [div_le_iff₀ (by positivity), Int.cast_pow, Int.cast_ofNat, ← pow_add]
  linarith

/-- The shift to a target above the least exponent leaves at least 53 bits. -/
theorem full_of_target (h : (m : ℚ) ≤ v) (he : e ≤ target m e) (hlt : -1074 < target m e) :
    (2 : ℚ) ^ 52 * 2 ^ target m e ≤ v * 2 ^ e := by
  have hlog : (m.log2 : ℤ) + 1 + e - 53 = target m e := by
    unfold target at hlt ⊢
    omega
  have hm0 : m ≠ 0 := by
    -- The target of a zero is below its exponent.
    rintro rfl
    rw [Nat.log2_zero] at hlog
    omega
  have h1 : ((2 : ℚ) ^ m.log2) ≤ m := by exact_mod_cast Nat.log2_self_le hm0
  calc (2 : ℚ) ^ 52 * 2 ^ target m e = 2 ^ m.log2 * 2 ^ e := by
        rw [← zpow_natCast, ← zpow_natCast, ← zpow_add₀ two_ne_zero, ← zpow_add₀ two_ne_zero]
        congr 1
        push_cast
        omega
    _ ≤ v * 2 ^ e := mul_le_mul_of_nonneg_right (h1.trans h) (two_zpow_pos e).le

/-- What rounding by shifts gives, in exact numbers. -/
theorem roundWithAccuracy_eq (s : Sign) {a : Accuracy}
    (hb : Brackets m (isCut a) v) (he : e ≤ target m e) :
    ∃ n, RoundsTo (v * 2 ^ e) n (target m e) ∧
      roundWithAccuracy .binary64 s m e a = settled s n (target m e) := by
  obtain ⟨hlo, hhi⟩ := hb.bounds
  have hstands := stands_shiftRight (stands_ofMantissaAndAccuracy hb) (target m e - e).toNat
  have hpos := two_zpow_pos (target m e)
  have hscale := div_two_pow_eq he v
  have hn :
      (ExtendedMantissa.ofMantissaAndAccuracy m a >>> (target m e - e).toNat).roundedMantissa ≤
        2 ^ 53 := by
    exact_mod_cast roundedMantissa_le hstands (div_two_pow_le hhi)
  refine ⟨_, ⟨?_, ?_, ?_, neg_le_target m e, hn, full_of_target hlo he⟩,
    roundWithAccuracy_eq_settled s a he hn⟩
  · exact mul_nonneg (le_trans (Nat.cast_nonneg m) hlo) (two_zpow_pos e).le
  · intro k hk
    refine roundedMantissa_le hstands ?_
    rw [hscale]
    exact (div_le_iff₀ hpos).mpr hk
  · intro k hk
    refine le_roundedMantissa hstands ?_
    rw [hscale]
    exact (le_div_iff₀ hpos).mpr hk

theorem log2_shiftLeft (hm : m ≠ 0) (k : ℕ) : (m <<< k).log2 = m.log2 + k := by
  have h0 : m <<< k ≠ 0 := by
    rw [Nat.shiftLeft_eq]
    exact Nat.mul_ne_zero hm (Nat.two_pow_pos k).ne'
  rw [Nat.log2_eq_iff h0, Nat.shiftLeft_eq]
  have h1 := Nat.log2_self_le hm
  have h2 : m < 2 ^ (m.log2 + 1) := Nat.lt_log2_self
  constructor
  · rw [Nat.pow_add]
    exact Nat.mul_le_mul_right _ h1
  · rw [show m.log2 + k + 1 = m.log2 + 1 + k by omega, Nat.pow_add]
    exact Nat.mul_lt_mul_of_pos_right h2 (Nat.two_pow_pos k)

theorem target_shiftLeft (hm : m ≠ 0) (e : ℤ) (k : ℕ) : target (m <<< k) (e - k) = target m e := by
  rw [target, target, log2_shiftLeft hm]
  congr 1
  push_cast
  omega

theorem cast_shiftLeft (m k : ℕ) (e : ℤ) : ((m <<< k : ℕ) : ℚ) * 2 ^ (e - k) = m * 2 ^ e := by
  rw [Nat.shiftLeft_eq, Nat.cast_mul, Nat.cast_pow, Nat.cast_ofNat, mul_assoc, ← zpow_natCast,
    ← zpow_add₀ two_ne_zero]
  congr 2
  omega

/-- Rounding a mantissa at any exponent. -/
theorem round_eq (s : Sign) (hm : m ≠ 0) (e : ℤ) :
    ∃ n t, RoundsTo (m * 2 ^ e) n t ∧ round .binary64 s m e = settled s n t := by
  unfold UnpackedFloat.round decreaseExponent
  rw [targetExponent_eq]
  dsimp only
  set k := (e - target m e).toNat with hk
  have htarget := target_shiftLeft hm e k
  have he : e - k ≤ target (m <<< k) (e - k) := by
    rw [htarget]
    omega
  have hb : Brackets (m <<< k) (isCut .exact) ((m <<< k : ℕ) : ℚ) := rfl
  obtain ⟨n, hn, heq⟩ := roundWithAccuracy_eq s hb he
  rw [cast_shiftLeft] at hn
  exact ⟨n, _, hn, heq⟩

/-! ## Quotients -/

theorem brackets_div {num den : ℕ} (hden : 0 < den) :
    Brackets (num / den) (isCut (accuracyOfFraction (num % den) den)) ((num : ℚ) / den) := by
  have hd : (0 : ℚ) < den := by exact_mod_cast hden
  have hdm : ((num / den : ℕ) : ℚ) * den + ((num % den : ℕ) : ℚ) = num := by
    exact_mod_cast Nat.div_add_mod' num den
  unfold accuracyOfFraction
  split
  · next h =>
    rw [h, Nat.cast_zero, add_zero] at hdm
    exact (div_eq_iff hd.ne').mpr hdm.symm
  · next h =>
    have hlt : ((num % den : ℕ) : ℚ) < den := by exact_mod_cast Nat.mod_lt num hden
    have hpos : (0 : ℚ) < ((num % den : ℕ) : ℚ) := by exact_mod_cast Nat.pos_of_ne_zero h
    constructor
    · rw [lt_div_iff₀ hd]
      linarith
    · rw [div_lt_iff₀ hd]
      linarith

/-- The quotient is computed with so many bits that it is only ever shifted to the right. -/
theorem divCore_le_target {m₁ m₂ : ℕ} (h₁ : m₁ ≠ 0) (h₂ : m₂ ≠ 0) (e₁ e₂ : ℤ) :
    (divCore .binary64 m₁ e₁ m₂ e₂).2.1 ≤
      target (divCore .binary64 m₁ e₁ m₂ e₂).1 (divCore .binary64 m₁ e₁ m₂ e₂).2.1 := by
  set d := divCore .binary64 m₁ e₁ m₂ e₂ with hd
  by_cases hleast : d.2.1 ≤ -1074
  · exact hleast.trans (neg_le_target _ _)
  · have he : d.2.1 = min (e₁ - e₂)
      (max (totalExponent m₁ e₁ - totalExponent m₂ e₂ - 53) (-1074)) := rfl
    have hq : d.1 = m₁ <<< (e₁ - e₂ - d.2.1).toNat / m₂ := rfl
    simp only [totalExponent] at he
    have hbits : 2 ^ 52 ≤ d.1 := by
      rw [hq, Nat.le_div_iff_mul_le (Nat.pos_of_ne_zero h₂), Nat.shiftLeft_eq]
      have hlo := Nat.log2_self_le h₁
      have hhi : m₂ < 2 ^ (m₂.log2 + 1) := Nat.lt_log2_self
      calc 2 ^ 52 * m₂ ≤ 2 ^ 52 * 2 ^ (m₂.log2 + 1) := Nat.mul_le_mul_left _ hhi.le
        _ = 2 ^ (52 + (m₂.log2 + 1)) := (Nat.pow_add ..).symm
        _ ≤ 2 ^ (m₁.log2 + (e₁ - e₂ - d.2.1).toNat) := Nat.pow_le_pow_right (by decide) (by omega)
        _ = 2 ^ m₁.log2 * 2 ^ (e₁ - e₂ - d.2.1).toNat := Nat.pow_add ..
        _ ≤ m₁ * 2 ^ (e₁ - e₂ - d.2.1).toNat := Nat.mul_le_mul_right _ hlo
    have hlog : 52 ≤ d.1.log2 := (Nat.le_log2 (by omega)).mpr hbits
    refine le_trans ?_ (le_max_left _ _)
    omega

/-- Rounding a quotient. -/
theorem div_eq (s : Sign) {m₁ m₂ : ℕ} (h₁ : m₁ ≠ 0) (h₂ : m₂ ≠ 0) (e₁ e₂ : ℤ) :
    ∃ n t, RoundsTo ((m₁ * 2 ^ e₁) / (m₂ * 2 ^ e₂)) n t ∧
      roundWithAccuracy .binary64 s (divCore .binary64 m₁ e₁ m₂ e₂).1
        (divCore .binary64 m₁ e₁ m₂ e₂).2.1 (divCore .binary64 m₁ e₁ m₂ e₂).2.2 =
        settled s n t := by
  have he := divCore_le_target h₁ h₂ e₁ e₂
  set d := divCore .binary64 m₁ e₁ m₂ e₂ with hd
  have hmin : d.2.1 ≤ e₁ - e₂ := min_le_left _ _
  have hk : ((e₁ - e₂ - d.2.1).toNat : ℤ) = e₁ - e₂ - d.2.1 := Int.toNat_of_nonneg (by omega)
  have hb : Brackets d.1 (isCut d.2.2) ((m₁ <<< (e₁ - e₂ - d.2.1).toNat : ℕ) / m₂ : ℚ) :=
    brackets_div (Nat.pos_of_ne_zero h₂)
  obtain ⟨n, hn, heq⟩ := roundWithAccuracy_eq s hb he
  refine ⟨n, _, ?_, heq⟩
  have hm₂ : (m₂ : ℚ) ≠ 0 := by exact_mod_cast h₂
  have hshift := cast_shiftLeft m₁ (e₁ - e₂ - d.2.1).toNat (e₁ - e₂)
  rw [hk, sub_sub_cancel] at hshift
  rwa [div_mul_eq_mul_div, hshift, zpow_sub₀ two_ne_zero, mul_div_assoc', div_div,
    mul_comm ((2 : ℚ) ^ e₂)] at hn

/-! ## Numbers that rounding does not cross -/

/-- The first power of two that no float reaches. -/
def beyond : ℚ := 2 ^ 1024

theorem beyond_pos : 0 < beyond := by
  unfold beyond
  positivity

/-- The numbers in range that have a mantissa of at most 53 bits. -/
def OnGrid (g : ℚ) : Prop :=
  |g| < beyond ∧ ∃ m e : ℤ, |m| ≤ 2 ^ 53 ∧ -1074 ≤ e ∧ g = m * 2 ^ e

theorem OnGrid.neg (h : OnGrid g) : OnGrid (-g) := by
  obtain ⟨h1, m, e, h2, h3, rfl⟩ := h
  exact ⟨by rwa [abs_neg], -m, e, by rwa [abs_neg], h3, by push_cast; ring⟩

/-- A mantissa with a larger exponent is a multiple at the smaller one. -/
theorem mul_zpow_of_le {f : ℤ} (h : t ≤ f) (m : ℤ) :
    (m : ℚ) * 2 ^ f = ((m * 2 ^ (f - t).toNat : ℤ) : ℚ) * 2 ^ t := by
  have hk : ((f - t).toNat : ℤ) = f - t := Int.toNat_of_nonneg (by omega)
  rw [Int.cast_mul, Int.cast_pow, Int.cast_ofNat, ← zpow_natCast, hk, mul_assoc,
    ← zpow_add₀ two_ne_zero]
  congr 2
  omega

/-- A number of the grid with a smaller exponent lies below all mantissas of 53 bits. -/
theorem mul_zpow_le_of_lt {f m : ℤ} (h : f < t) (hm : |m| ≤ 2 ^ 53) :
    (m : ℚ) * 2 ^ f ≤ 2 ^ 52 * 2 ^ t := by
  have h1 : (m : ℚ) ≤ 2 ^ 53 := by exact_mod_cast (le_abs_self m).trans hm
  calc (m : ℚ) * 2 ^ f ≤ 2 ^ 53 * 2 ^ f := mul_le_mul_of_nonneg_right h1 (two_zpow_pos f).le
    _ = 2 ^ 52 * 2 ^ (f + 1) := by rw [zpow_add_one₀ two_ne_zero]; ring
    _ ≤ 2 ^ 52 * 2 ^ t :=
      mul_le_mul_of_nonneg_left (zpow_le_zpow_right₀ (by norm_num) (by omega)) (by positivity)

theorem RoundsTo.le_of_onGrid (h : RoundsTo q n t) (hg : OnGrid g) (hq : q ≤ g) :
    (n : ℚ) * 2 ^ t ≤ g := by
  obtain ⟨_, m, f, hm, hf, rfl⟩ := hg
  have hmono : ∀ k : ℤ, q ≤ k * 2 ^ t → (n : ℚ) * 2 ^ t ≤ k * 2 ^ t := by
    intro k hk
    refine mul_le_mul_of_nonneg_right ?_ (two_zpow_pos t).le
    exact_mod_cast h.le_of_le k hk
  by_cases hlt : f < t
  · -- The number lies at the lower end of the mantissas of 53 bits, and so does `q`.
    have h1 := h.full (by omega)
    have h2 := mul_zpow_le_of_lt hlt hm
    have h3 := hmono (2 ^ 52) (by push_cast; linarith)
    push_cast at h3
    linarith
  · rw [mul_zpow_of_le (not_lt.mp hlt) m] at hq ⊢
    exact hmono _ hq

theorem RoundsTo.ge_of_onGrid (h : RoundsTo q n t) (hg : OnGrid g) (hq : g ≤ q) :
    g ≤ (n : ℚ) * 2 ^ t := by
  obtain ⟨_, m, f, hm, hf, rfl⟩ := hg
  have hmono : ∀ k : ℤ, (k : ℚ) * 2 ^ t ≤ q → (k : ℚ) * 2 ^ t ≤ n * 2 ^ t := by
    intro k hk
    refine mul_le_mul_of_nonneg_right ?_ (two_zpow_pos t).le
    exact_mod_cast h.ge_of_ge k hk
  by_cases hlt : f < t
  · have h1 := hmono (2 ^ 52) (by push_cast; exact h.full (by omega))
    have h2 := mul_zpow_le_of_lt hlt hm
    push_cast at h1
    linarith
  · rw [mul_zpow_of_le (not_lt.mp hlt) m] at hq ⊢
    exact hmono _ hq

end Stopwatch.Rounding
