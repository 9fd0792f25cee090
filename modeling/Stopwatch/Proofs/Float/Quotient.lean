import Stopwatch.Proofs.Float.View

/-!
# The float of a quotient

`Binary.ofRatio` finds the float of a quotient of natural numbers in exact numbers: it scales the
quotient to 53 bits, rounds it to a whole number (`roundsTo_scale`) and puts the bits together
(`pack_cases`). What comes out is the quotient rounded, as for the arithmetic of floats, and
something does come out for every quotient within reach (`ofRatio_cases`).
-/

open Float.Model Float.Model.UnpackedFloat

namespace Stopwatch.Binary

open Rounding

variable {m e num den : ℕ} {negative : Bool}

/-! ## Bits -/

/-- The sign of a number. -/
def signOf (negative : Bool) : Sign := if negative then .negative else .positive

theorem toNat_packComponents (s : Sign) (ev : BitVec 11) (mv : BitVec 52) :
    (packComponents .binary64 s ev mv).toNat = s.toBitVec.toNat * 2 ^ 63 +
      ev.toNat * 2 ^ 52 + mv.toNat := by
  have h1 : (s.toBitVec ++ ev).toNat = s.toBitVec.toNat * 2 ^ 11 + ev.toNat := by
    rw [BitVec.toNat_append, ← Nat.shiftLeft_add_eq_or_of_lt ev.isLt, Nat.shiftLeft_eq]
  have h2 : ((s.toBitVec ++ ev) ++ mv).toNat = (s.toBitVec ++ ev).toNat * 2 ^ 52 + mv.toNat := by
    rw [BitVec.toNat_append, ← Nat.shiftLeft_add_eq_or_of_lt mv.isLt, Nat.shiftLeft_eq]
  refine h2.trans ?_
  rw [h1]
  ring

/-- The bits with a field for the exponent and a fraction. -/
def bitsOf (negative : Bool) (field fraction : ℕ) : UInt64 :=
  UInt64.ofNat ((if negative then 1 <<< 63 else 0) + field * leadingBit + fraction)

theorem toBitVec_bitsOf {field fraction : ℕ} (h1 : field < 2 ^ 11) (h2 : fraction < 2 ^ 52) :
    (bitsOf negative field fraction).toBitVec =
      packComponents .binary64 (signOf negative) (BitVec.ofNat 11 field)
      (BitVec.ofNat 52 fraction) := by
  apply BitVec.eq_of_toNat_eq
  rw [toNat_packComponents, BitVec.toNat_ofNat, BitVec.toNat_ofNat,
    Nat.mod_eq_of_lt h1, Nat.mod_eq_of_lt h2]
  show (UInt64.ofNat _).toNat = _
  rw [UInt64.toNat_ofNat', leadingBit]
  cases negative with
  | false =>
    have hsign : (signOf false).toBitVec.toNat = 0 := rfl
    rw [hsign]
    simp only [Bool.false_eq_true, if_false]
    omega
  | true =>
    have hsign : (signOf true).toBitVec.toNat = 1 := rfl
    rw [hsign]
    simp only [if_true]
    omega

/-- What the bits of a finite number stand for: without a field, the fraction alone. -/
theorem unpack_bitsOf (negative : Bool) (field fraction : ℕ) (h1 : field < 2047)
    (h2 : fraction < 2 ^ 52) :
    UnpackedFloat.unpack .binary64 (bitsOf negative field fraction).toBitVec =
      if field = 0 then settled (signOf negative) fraction (-1074)
      else .finite (signOf negative) (2 ^ 52 + fraction) ((field : ℤ) - 1075) (by omega) := by
  have hfield : (BitVec.ofNat 11 field).toNat = field := Nat.mod_eq_of_lt (by omega)
  have hfraction : (BitVec.ofNat 52 fraction).toNat = fraction := Nat.mod_eq_of_lt h2
  have hones : BitVec.ofNat 11 field ≠ -1#_ := by
    intro h
    have := congrArg BitVec.toNat h
    rw [hfield, BitVec.neg_one_eq_allOnes, BitVec.toNat_allOnes] at this
    omega
  have hzero : BitVec.ofNat 11 field = 0#_ ↔ field = 0 := by
    rw [← BitVec.toNat_inj, hfield, BitVec.toNat_zero]
  have hnone : BitVec.ofNat 52 fraction = 0#_ ↔ fraction = 0 := by
    rw [← BitVec.toNat_inj, hfraction, BitVec.toNat_zero]
  rw [toBitVec_bitsOf (by omega) h2, unpack_packComponents, if_neg hones]
  simp only [hzero, hnone, hfield, hfraction, settled]
  by_cases h0 : field = 0
  · rw [if_pos h0, if_pos h0]
    by_cases hf : fraction = 0
    · rw [dif_pos hf, dif_pos hf]
    · rw [dif_neg hf, dif_neg hf, if_pos (by omega)]
  · rw [if_neg h0, if_neg h0]

theorem ofBits_eq (b : UInt64) :
    Float.ofBits b = Float.ofModel
      (Float.Model.pack (UnpackedFloat.unpack .binary64 b.toBitVec)) := rfl

/-! ## Packing -/

theorem beyond_le_mul_zpow (hm : 2 ^ 52 ≤ m) (he : 2046 ≤ e) :
    beyond ≤ (m : ℚ) * 2 ^ ((e : ℤ) - 1074) := by
  have h1 : (2 : ℚ) ^ 52 ≤ m := by exact_mod_cast hm
  calc beyond = 2 ^ 52 * 2 ^ (972 : ℤ) := by
        rw [show (972 : ℤ) = ((972 : ℕ) : ℤ) from rfl, zpow_natCast, ← pow_add, beyond]
    _ ≤ 2 ^ 52 * 2 ^ ((e : ℤ) - 1074) :=
      mul_le_mul_of_nonneg_left (zpow_le_zpow_right₀ (by norm_num) (by omega)) (by positivity)
    _ ≤ m * 2 ^ ((e : ℤ) - 1074) := mul_le_mul_of_nonneg_right h1 (two_zpow_pos _).le

theorem beyond_eq : beyond = (2 ^ 53 : ℕ) * 2 ^ ((2045 : ℕ) - 1074 : ℤ) := by
  have hexp : ((2045 : ℕ) - 1074 : ℤ) = ((971 : ℕ) : ℤ) := by norm_num
  rw [hexp, zpow_natCast, Nat.cast_pow, Nat.cast_ofNat, ← pow_add, beyond]

/-- A mantissa without its leading bit has the least exponent. -/
theorem pack_of_lt (h : m < 2 ^ 52) :
    pack negative m 0 =
      some (Float.ofModel (Float.Model.pack (settled (signOf negative) m (-1074)))) := by
  have hbits : UInt64.ofNat ((if negative = true then 1 <<< 63 else 0) + m) =
      bitsOf negative 0 m := by
    rw [bitsOf, Nat.zero_mul, Nat.add_zero]
  have hunpack := unpack_bitsOf negative 0 m (by omega) h
  rw [if_pos rfl] at hunpack
  unfold pack
  rw [if_neg (by omega), if_pos (show m < leadingBit from h), hbits, ofBits_eq, hunpack]

/-- A mantissa with its leading bit. -/
theorem pack_of_le (h1 : 2 ^ 52 ≤ m) (h2 : m < 2 ^ 53) (he : e < 2046) :
    pack negative m e =
      some (Float.ofModel (Float.Model.pack (settled (signOf negative) m ((e : ℤ) - 1074)))) := by
  have hlead : leadingBit = 2 ^ 52 := rfl
  have hbits : UInt64.ofNat ((if negative = true then 1 <<< 63 else 0) + (e + 1) *
      leadingBit + (m - leadingBit)) =
      bitsOf negative (e + 1) (m - leadingBit) := by rw [bitsOf]
  have hunpack := unpack_bitsOf negative (e + 1) (m - leadingBit) (by omega) (by omega)
  have hsum : 2 ^ 52 + (m - leadingBit) = m := by omega
  have hexp : ((e + 1 : ℕ) : ℤ) - 1075 = (e : ℤ) - 1074 := by omega
  have hsettled : settled (signOf negative) m ((e : ℤ) - 1074) =
      .finite (signOf negative) m ((e : ℤ) - 1074) (by omega) := by
    rw [settled, dif_neg (by omega), if_pos h2]
  simp only [hsum, hexp] at hunpack
  rw [if_neg (by omega), ← hsettled] at hunpack
  unfold pack
  rw [if_neg (by omega), if_neg (by omega), if_neg (by rw [beq_iff_eq]; omega),
    hbits, ofBits_eq, hunpack]

/-- A mantissa that was rounded up to 54 bits is a power of two. -/
theorem pack_two_pow (he : e < 2045) :
    pack negative (2 ^ 53) e =
      some (Float.ofModel
        (Float.Model.pack (settled (signOf negative) (2 ^ 53) ((e : ℤ) - 1074)))) := by
  have hbits : UInt64.ofNat ((if negative = true then 1 <<< 63 else 0) + (e + 2) * leadingBit) =
      bitsOf negative (e + 2) 0 := congrArg UInt64.ofNat (Nat.add_zero _).symm
  have hunpack := unpack_bitsOf negative (e + 2) 0 (by omega) (by omega)
  have hexp : ((e + 2 : ℕ) : ℤ) - 1075 = (e : ℤ) - 1074 + 1 := by omega
  have hsettled : settled (signOf negative) (2 ^ 53) ((e : ℤ) - 1074) =
      .finite (signOf negative) (2 ^ 52) ((e : ℤ) - 1074 + 1) (by decide) := by
    rw [settled, dif_neg (by decide), if_neg (by decide)]
  simp only [Nat.add_zero, hexp] at hunpack
  rw [if_neg (by omega), ← hsettled] at hunpack
  unfold pack
  rw [if_neg (by omega), if_neg (by decide), if_pos (by decide),
    if_neg (by rw [beq_iff_eq]; omega), hbits, ofBits_eq, hunpack]

/-- The bits are put together as those of a mantissa that has been rounded, unless it is out of
reach. -/
theorem pack_cases (negative : Bool) (hm : m ≤ 2 ^ 53) (hfull : 0 < e → 2 ^ 52 ≤ m) :
    pack negative m e = none ∧ beyond ≤ (m : ℚ) * 2 ^ ((e : ℤ) - 1074) ∨
      pack negative m e =
        some (Float.ofModel (Float.Model.pack (settled (signOf negative) m ((e : ℤ) - 1074)))) := by
  by_cases hgreat : 2046 ≤ e
  · left
    exact ⟨by rw [pack, if_pos hgreat], beyond_le_mul_zpow (hfull (by omega)) hgreat⟩
  rcases Nat.lt_or_ge m (2 ^ 52) with hsmall | hlarge
  · right
    obtain rfl : e = 0 := by
      by_contra he
      have := hfull (by omega)
      omega
    rw [pack_of_lt hsmall, Nat.cast_zero, zero_sub]
  rcases Nat.lt_or_eq_of_le hm with hlt | rfl
  · right
    exact pack_of_le hlarge hlt (by omega)
  by_cases hlast : e = 2045
  · left
    subst hlast
    refine ⟨?_, beyond_eq.le⟩
    rw [pack, if_neg (by decide), if_neg (by decide), if_pos (by decide), if_pos (by decide)]
  · right
    exact pack_two_pow (by omega)

/-! ## Whole quotients -/

/-- Rounding a quotient does not cross a whole number, upwards. -/
theorem roundDiv_le {k : ℕ} (hden : 0 < den) (h : num ≤ k * den) : roundDiv num den ≤ k := by
  have hsplit := Nat.div_add_mod' num den
  have hle : num / den ≤ k := Nat.div_le_of_le_mul (by rwa [Nat.mul_comm])
  rcases Nat.eq_zero_or_pos (num % den) with hmod | hmod
  · simp [roundDiv, hmod, hden, hle]
  · -- Something is left over, so the whole part is below the number.
    have hlt : num / den < k := by
      by_contra hge
      have hmul : k * den ≤ num / den * den := Nat.mul_le_mul_right den (not_lt.mp hge)
      omega
    unfold roundDiv
    dsimp only
    split_ifs <;> omega

/-- Rounding a quotient does not cross a whole number, downwards. -/
theorem le_roundDiv {k : ℕ} (hden : 0 < den) (h : k * den ≤ num) : k ≤ roundDiv num den := by
  have hle : k ≤ num / den := (Nat.le_div_iff_mul_le hden).mpr h
  unfold roundDiv
  dsimp only
  split_ifs <;> omega

/-! ## The scale -/

/-- The quotient at the scale `2 ^ s`, as it is computed: one of the two numbers is shifted. -/
theorem shiftLeft_div_shiftLeft (num den : ℕ) (s : ℤ) :
    ((num <<< (-s).toNat : ℕ) : ℚ) / ((den <<< s.toNat : ℕ) : ℚ) = num / den / 2 ^ s := by
  have hpower : (2 : ℚ) ^ s.toNat / 2 ^ (-s).toNat = 2 ^ s := by
    rw [← zpow_natCast, ← zpow_natCast, ← zpow_sub₀ two_ne_zero]
    congr 1
    omega
  rw [Nat.shiftLeft_eq, Nat.shiftLeft_eq, ← hpower]
  push_cast
  field_simp

theorem shiftLeft_pos (hden : 0 < den) (k : ℕ) : 0 < den <<< k := by
  rw [Nat.shiftLeft_eq]
  exact Nat.mul_pos hden (Nat.two_pow_pos k)

theorem shiftLeft_le_iff (num : ℕ) (hden : 0 < den) (s : ℤ) (k : ℕ) :
    num <<< (-s).toNat ≤ k * den <<< s.toNat ↔ (num : ℚ) / den ≤ k * 2 ^ s := by
  have hpos : (0 : ℚ) < (den <<< s.toNat : ℕ) := by exact_mod_cast shiftLeft_pos hden _
  rw [← div_le_iff₀ (two_zpow_pos s), ← shiftLeft_div_shiftLeft, div_le_iff₀ hpos]
  norm_cast

theorem le_shiftLeft_iff (num : ℕ) (hden : 0 < den) (s : ℤ) (k : ℕ) :
    k * den <<< s.toNat ≤ num <<< (-s).toNat ↔ (k : ℚ) * 2 ^ s ≤ num / den := by
  have hpos : (0 : ℚ) < (den <<< s.toNat : ℕ) := by exact_mod_cast shiftLeft_pos hden _
  rw [← le_div_iff₀ (two_zpow_pos s), ← shiftLeft_div_shiftLeft, le_div_iff₀ hpos]
  norm_cast

/-- The exponent of the leading bits, by the sizes of the two numbers. -/
def guess (num den : ℕ) : ℤ := (num.log2 : ℤ) - den.log2 - 52

/-- The guess lowered by one if it is too great. -/
def fitted (num den : ℕ) : ℤ :=
  if num <<< (-guess num den).toNat < (den <<< (guess num den).toNat) * leadingBit then
    guess num den - 1
  else guess num den

/-- The exponent at which a quotient is rounded. -/
def scale (num den : ℕ) : ℤ := max (fitted num den) minExponent

theorem ofRatio_eq (hnum : num ≠ 0) (hden : den ≠ 0) :
    ofRatio negative num den =
      pack negative (roundDiv (num <<< (-scale num den).toNat) (den <<< (scale num den).toNat))
        (scale num den - minExponent).toNat := by
  unfold ofRatio
  rw [if_neg (by simp [hnum, hden])]
  rfl

theorem quotient_lt (num : ℕ) (hden : den ≠ 0) : (num : ℚ) / den < 2 ^ (guess num den + 53) := by
  have h1 : (num : ℚ) < 2 ^ (num.log2 + 1) := by
    exact_mod_cast (Nat.lt_log2_self : num < 2 ^ (num.log2 + 1))
  have h2 : ((2 : ℚ) ^ den.log2) ≤ den := by exact_mod_cast Nat.log2_self_le hden
  have hexp : (2 : ℚ) ^ (guess num den + 53) * 2 ^ den.log2 = 2 ^ (num.log2 + 1) := by
    rw [← zpow_natCast, ← zpow_natCast, ← zpow_add₀ two_ne_zero]
    congr 1
    unfold guess
    push_cast
    ring
  have hpos : (0 : ℚ) < den := by exact_mod_cast Nat.pos_of_ne_zero hden
  rw [div_lt_iff₀ hpos]
  calc (num : ℚ) < 2 ^ (guess num den + 53) * 2 ^ den.log2 := hexp ▸ h1
    _ ≤ 2 ^ (guess num den + 53) * den := mul_le_mul_of_nonneg_left h2 (two_zpow_pos _).le

theorem lt_quotient (hnum : num ≠ 0) (hden : den ≠ 0) :
    (2 : ℚ) ^ (guess num den + 51) < num / den := by
  have h1 : ((2 : ℚ) ^ num.log2) ≤ num := by exact_mod_cast Nat.log2_self_le hnum
  have h2 : (den : ℚ) < 2 ^ (den.log2 + 1) := by
    exact_mod_cast (Nat.lt_log2_self : den < 2 ^ (den.log2 + 1))
  have hexp : (2 : ℚ) ^ (guess num den + 51) * 2 ^ (den.log2 + 1) = 2 ^ num.log2 := by
    rw [← zpow_natCast, ← zpow_natCast, ← zpow_add₀ two_ne_zero]
    congr 1
    unfold guess
    push_cast
    ring
  have hpos : (0 : ℚ) < den := by exact_mod_cast Nat.pos_of_ne_zero hden
  rw [lt_div_iff₀ hpos]
  calc (2 : ℚ) ^ (guess num den + 51) * den < 2 ^ (guess num den + 51) * 2 ^ (den.log2 + 1) :=
        mul_lt_mul_of_pos_left h2 (two_zpow_pos _)
    _ ≤ num := hexp ▸ h1

/-- The fitted exponent leaves exactly 53 bits before the point. -/
theorem fitted_bounds (hnum : num ≠ 0) (hden : den ≠ 0) :
    (2 : ℚ) ^ 52 * 2 ^ fitted num den ≤ num / den ∧
      (num : ℚ) / den < 2 ^ 53 * 2 ^ fitted num den := by
  have hpower : ∀ (k : ℕ) (s : ℤ), (2 : ℚ) ^ k * 2 ^ s = 2 ^ (s + k) := by
    intro k s
    rw [zpow_add₀ two_ne_zero, zpow_natCast, mul_comm]
  have hfits : num <<< (-guess num den).toNat < (den <<< (guess num den).toNat) * leadingBit ↔
      (num : ℚ) / den < 2 ^ 52 * 2 ^ guess num den := by
    have h := le_shiftLeft_iff num (Nat.pos_of_ne_zero hden) (guess num den) (2 ^ 52)
    rw [Nat.mul_comm, ← not_le, show leadingBit = 2 ^ 52 from rfl, h, not_le]
    push_cast
    rfl
  have hlt := quotient_lt num hden
  have hgt := lt_quotient hnum hden
  unfold fitted
  by_cases h : num <<< (-guess num den).toNat < (den <<< (guess num den).toNat) * leadingBit
  · rw [if_pos h]
    rw [hfits, hpower] at h
    rw [hpower, hpower]
    constructor
    · refine le_trans (le_of_eq ?_) hgt.le
      congr 1
      push_cast
      ring
    · refine lt_of_lt_of_eq h ?_
      congr 1
      push_cast
      ring
  · rw [if_neg h]
    rw [hfits, not_lt] at h
    refine ⟨h, ?_⟩
    rw [hpower]
    exact_mod_cast hlt

theorem minExponent_eq_neg : minExponent = -1074 := rfl

/-- Rounding a quotient at its scale. -/
theorem roundsTo_scale (hnum : num ≠ 0) (hden : den ≠ 0) :
    RoundsTo ((num : ℚ) / den)
      (roundDiv (num <<< (-scale num den).toNat) (den <<< (scale num den).toNat))
      (scale num den) := by
  have hpos := Nat.pos_of_ne_zero hden
  have hshift : 0 < den <<< (scale num den).toNat := shiftLeft_pos hpos _
  obtain ⟨hlow, hhigh⟩ := fitted_bounds hnum hden
  have hquotient : (0 : ℚ) ≤ num / den := by positivity
  have hle : ∀ k : ℕ, (num : ℚ) / den ≤ k * 2 ^ scale num den →
      roundDiv (num <<< (-scale num den).toNat) (den <<< (scale num den).toNat) ≤ k := by
    intro k hk
    exact roundDiv_le hshift ((shiftLeft_le_iff num hpos _ k).mpr hk)
  refine ⟨hquotient, ?_, ?_, le_max_right _ _, ?_, ?_⟩
  · intro k hk
    obtain ⟨n, rfl⟩ : ∃ n : ℕ, k = n := by
      refine Int.eq_ofNat_of_zero_le ?_
      by_contra hneg
      have hk0 : (k : ℚ) < 0 := by exact_mod_cast not_le.mp hneg
      have := mul_neg_of_neg_of_pos hk0 (two_zpow_pos (scale num den))
      linarith
    exact_mod_cast hle n (by exact_mod_cast hk)
  · intro k hk
    rcases lt_or_ge k 0 with hneg | hneg
    · omega
    · obtain ⟨n, rfl⟩ := Int.eq_ofNat_of_zero_le hneg
      exact_mod_cast le_roundDiv hshift ((le_shiftLeft_iff num hpos _ n).mpr (by exact_mod_cast hk))
  · refine hle (2 ^ 53) ?_
    push_cast
    refine hhigh.le.trans (mul_le_mul_of_nonneg_left ?_ (by positivity))
    exact zpow_le_zpow_right₀ (by norm_num) (le_max_left _ _)
  · intro hleast
    have heq : scale num den = fitted num den := by
      have := minExponent_eq_neg
      unfold scale at hleast ⊢
      omega
    rwa [heq]

/-! ## Quotients -/

theorem signed_signOf (negative : Bool) (q : ℚ) :
    signed (signOf negative) q = if negative then -q else q := by
  cases negative <;> rfl

theorem exists_pack_zero (negative : Bool) : ∃ x, pack negative 0 0 = some x ∧ Rounds 0 x :=
  ⟨_, pack_of_lt (by norm_num), rounds_zero (signOf negative)⟩

/-- **The float of a quotient is the quotient rounded.** There is none only if the quotient is out
of reach. -/
theorem ofRatio_cases (negative : Bool) (hnum : num ≠ 0) (hden : den ≠ 0) :
    ofRatio negative num den = none ∧ 2 ^ 1023 < (num : ℚ) / den ∨
      ∃ x, ofRatio negative num den = some x ∧
        Rounds (if negative then -(num / den : ℚ) else num / den) x := by
  have hrounds := roundsTo_scale hnum hden
  have hleast := hrounds.least
  have hmin := minExponent_eq_neg
  have hexp : (((scale num den - minExponent).toNat : ℕ) : ℤ) - 1074 = scale num den := by omega
  have hfull : 0 < (scale num den - minExponent).toNat →
      2 ^ 52 ≤ roundDiv (num <<< (-scale num den).toNat) (den <<< (scale num den).toNat) := by
    intro hpos
    have := hrounds.ge_of_ge (2 ^ 52) (by push_cast; exact hrounds.full (by omega))
    exact_mod_cast this
  rw [ofRatio_eq hnum hden]
  rcases pack_cases negative hrounds.size_le hfull with ⟨hnone, hbeyond⟩ | hsome
  · left
    refine ⟨hnone, ?_⟩
    rw [hexp] at hbeyond
    by_contra hle
    have hround := hrounds.le_of_onGrid (onGrid_two_pow (k := 1023) (by norm_num)) (not_lt.mp hle)
    have hlt : (2 : ℚ) ^ 1023 < beyond := pow_lt_pow_right₀ (by norm_num) (by norm_num)
    exact absurd (hbeyond.trans hround) (not_le.mpr hlt)
  · right
    rw [hexp] at hsome
    refine ⟨_, hsome, ?_⟩
    rw [← signed_signOf]
    exact rounds_settled _ hrounds

end Stopwatch.Binary
