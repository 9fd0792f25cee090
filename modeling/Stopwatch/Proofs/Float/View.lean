import Stopwatch.Proofs.Float.Arithmetic

/-!
# Floats taken apart

`Binary.ofFields` takes the bits of a float apart by shifts and remainders of natural numbers. What
comes out is what the bits stand for, in any format (`ofFields_eq`), so the mantissa and the
exponent that come out of a finite float give its value, and a float of 32 bits loses nothing on its
way to one of 64 bits (`worth?_ofSingle`).
-/

open Float.Model Float.Model.UnpackedFloat

namespace Stopwatch

namespace Binary

/-! ## Fields -/

/-- True for the sign of a negative number. -/
def isNegative : Sign → Bool
  | .negative => true
  | .positive => false

/-- What bits stand for, with a mantissa for zero too, which has the least exponent. -/
def ofUnpacked (least : ℤ) : UnpackedFloat → Binary
  | .notANumber => .nan
  | .infinity s => .infinite (isNegative s)
  | .zero s => .finite (isNegative s) 0 least
  | .finite s m e _ => .finite (isNegative s) m e

variable {spec : Format} (b : BitVec spec.numBits)

theorem toNat_unpackMantissa :
    (unpackMantissa b).toNat = b.toNat % 2 ^ spec.mantissaBitsWithoutImplicit := by
  have := spec.hm
  simp only [unpackMantissa, BitVec.toNat_cast, BitVec.extractLsb_toNat,
    Nat.shiftRight_zero, Nat.sub_zero]
  rw [Nat.sub_add_cancel this]

theorem toNat_unpackExponent :
    (unpackExponent b).toNat = (b.toNat >>> spec.mantissaBitsWithoutImplicit) %
      2 ^ spec.exponentBits := by
  have := spec.he
  simp only [unpackExponent, BitVec.toNat_cast, BitVec.extractLsb_toNat]
  congr 2
  omega

theorem isNegative_unpackSign :
    isNegative (Sign.ofBitVec (unpackSign b)) =
      (b.toNat >>> (spec.exponentBits + spec.mantissaBitsWithoutImplicit) == 1) := by
  have hlt : b.toNat >>> (spec.exponentBits + spec.mantissaBitsWithoutImplicit) < 2 := by
    rw [Nat.shiftRight_eq_div_pow]
    refine Nat.div_lt_of_lt_mul (b.isLt.trans_eq ?_)
    rw [Format.numBits, Nat.add_assoc, Nat.add_comm, pow_succ]
  have hsign : (unpackSign b).toNat =
      b.toNat >>> (spec.exponentBits + spec.mantissaBitsWithoutImplicit) := by
    simp only [unpackSign, BitVec.toNat_cast, BitVec.extractLsb_toNat,
      Nat.sub_self, Nat.zero_add, pow_one]
    rw [Nat.add_comm spec.mantissaBitsWithoutImplicit]
    exact Nat.mod_eq_of_lt hlt
  have hzero : unpackSign b = 0#1 ↔ (unpackSign b).toNat = 0 := by
    rw [← BitVec.toNat_inj]
    rfl
  rw [← hsign] at hlt ⊢
  unfold Sign.ofBitVec
  split_ifs with h
  · rw [hzero.mp h]
    rfl
  · rw [hzero] at h
    rw [show (unpackSign b).toNat = 1 by omega]
    rfl

/-- The exponent of the smallest numbers, by the bias. -/
theorem minExponent_eq (spec : Format) :
    spec.minExponent = 1 - (spec.exponentBias + spec.mantissaBitsWithoutImplicit : ℤ) := by
  have hpow : 1 ≤ 2 ^ (spec.exponentBits - 1) := Nat.one_le_two_pow
  rw [Format.minExponent, Format.exponentBias, Format.mantissaBits, Nat.cast_sub hpow]
  push_cast
  ring

/-- **The fields are what the bits stand for**, in any format. -/
theorem ofFields_eq :
    ofFields spec.exponentBits spec.mantissaBitsWithoutImplicit b.toNat =
      ofUnpacked spec.minExponent (UnpackedFloat.unpack spec b) := by
  have hleast : ((2 : ℕ) : ℤ) - ((2 ^ (spec.exponentBits - 1) : ℕ) : ℤ) -
      spec.mantissaBitsWithoutImplicit =
      spec.minExponent := by
    rw [Format.minExponent, Format.mantissaBits]
    push_cast
    ring
  have hones : unpackExponent b = -1#_ ↔ (unpackExponent b).toNat = 2 ^ spec.exponentBits - 1 := by
    rw [← BitVec.toNat_inj, BitVec.neg_one_eq_allOnes, BitVec.toNat_allOnes]
  have hzero : unpackExponent b = 0#_ ↔ (unpackExponent b).toNat = 0 := by
    rw [← BitVec.toNat_inj, BitVec.toNat_zero]
  have hfraction : unpackMantissa b = 0#_ ↔ (unpackMantissa b).toNat = 0 := by
    rw [← BitVec.toNat_inj, BitVec.toNat_zero]
  simp only [ofFields, UnpackedFloat.unpack, Nat.one_shiftLeft,
    ← toNat_unpackMantissa, ← toNat_unpackExponent, ← isNegative_unpackSign, hones, hzero,
    hfraction, hleast, beq_iff_eq]
  split_ifs with h1 h2 h3 h4
  · rfl
  · rfl
  · rw [h4]
    rfl
  · simp only [ofUnpacked, h3]
    congr 1
    rw [minExponent_eq]
    push_cast
    ring
  · simp only [ofUnpacked, Rounding.toNat_one_append]
    congr 1
    rw [minExponent_eq]
    omega

theorem view_eq (x : Float) : view x = ofUnpacked (-1074) x.toModel.unpack :=
  @ofFields_eq .binary64 x.toModel.toBits.toBitVec

theorem viewSingle_eq (x : Float32) : viewSingle x = ofUnpacked (-149) x.toModel.unpack :=
  @ofFields_eq .binary32 x.toModel.toBits.toBitVec

/-! ## Values -/

open Rounding

/-- The number `±m · 2 ^ e`. -/
def number (negative : Bool) (m : ℕ) (e : ℤ) : ℚ := if negative then -(m * 2 ^ e) else m * 2 ^ e

/-- The number that a float taken apart stands for. -/
def worth? : Binary → Option ℚ
  | .finite negative m e => some (number negative m e)
  | _ => none

theorem worth?_ofUnpacked (least : ℤ) (u : UnpackedFloat) :
    (ofUnpacked least u).worth? = if u.isFinite then some (worth u) else none := by
  cases u with
  | notANumber => rfl
  | infinity s => rfl
  | zero s =>
    cases s <;> simp [ofUnpacked, worth?, number, isNegative, UnpackedFloat.isFinite, worth]
  | finite s m e p => cases s <;> rfl

theorem worth?_view (x : Float) :
    (view x).worth? = if x.isFinite then some (value x) else none := by
  rw [view_eq]
  exact worth?_ofUnpacked _ _

theorem worth?_viewSingle (x : Float32) :
    (viewSingle x).worth? = if x.isFinite then some (worth x.toModel.unpack) else none := by
  rw [viewSingle_eq]
  exact worth?_ofUnpacked _ _

/-- The mantissa has one bit more than the fraction, and the exponent is less than the greatest
field. -/
theorem bounds_of_ofFields {fieldBits fractionBits bits m : ℕ} {negative : Bool} {e : ℤ}
    (h : ofFields fieldBits fractionBits bits = .finite negative m e) :
    m < 2 ^ (fractionBits + 1) ∧ (2 : ℤ) - 2 ^ (fieldBits - 1) - fractionBits ≤ e ∧
      e ≤ (2 : ℤ) - 2 ^ (fieldBits - 1) - fractionBits + (2 ^ fieldBits - 3 : ℕ) := by
  have hfraction := Nat.mod_lt bits (Nat.two_pow_pos fractionBits)
  have hfield := Nat.mod_lt (bits >>> fractionBits) (Nat.two_pow_pos fieldBits)
  simp only [ofFields, Nat.one_shiftLeft, beq_iff_eq] at h
  rw [pow_succ]
  push_cast at h
  split_ifs at h with h1 h2 h3
  · obtain ⟨-, rfl, rfl⟩ := Binary.finite.inj h
    omega
  · obtain ⟨-, rfl, rfl⟩ := Binary.finite.inj h
    omega

theorem bounds_of_view {x : Float} {negative : Bool} {m : ℕ} {e : ℤ}
    (h : view x = .finite negative m e) :
    m < 2 ^ 53 ∧ -1074 ≤ e ∧ e ≤ 971 := bounds_of_ofFields h

theorem bounds_of_viewSingle {x : Float32} {negative : Bool} {m : ℕ} {e : ℤ}
    (h : viewSingle x = .finite negative m e) : m < 2 ^ 24 ∧ -149 ≤ e ∧
    e ≤ 104 := bounds_of_ofFields h

/-! ## Whole numbers -/

variable {m k : ℕ} {e : ℤ}

/-- A mantissa with an exponent is a quotient of natural numbers. -/
theorem mul_zpow_eq_div (m : ℕ) (e : ℤ) :
    (m : ℚ) * (2 : ℚ) ^ e = ((m <<< e.toNat : ℕ) : ℚ) / ((1 <<< (-e).toNat : ℕ) : ℚ) := by
  rw [Nat.shiftLeft_eq, Nat.one_shiftLeft]
  push_cast
  rw [← zpow_natCast, ← zpow_natCast, mul_div_assoc, ← zpow_sub₀ two_ne_zero]
  congr 2
  omega

/-- The number is whole if the division leaves nothing, and then it is the quotient. -/
theorem mul_zpow_eq_natCast_iff :
    (m : ℚ) * 2 ^ e = k ↔ (m <<< e.toNat) % (1 <<< (-e).toNat) = 0 ∧
      (m <<< e.toNat) >>> (-e).toNat = k := by
  have hpos : 0 < 1 <<< (-e).toNat := by
    rw [Nat.one_shiftLeft]
    exact Nat.two_pow_pos _
  have hne : ((1 <<< (-e).toNat : ℕ) : ℚ) ≠ 0 := by exact_mod_cast hpos.ne'
  rw [mul_zpow_eq_div, div_eq_iff hne, Nat.shiftRight_eq_div_pow, ← Nat.one_shiftLeft]
  norm_cast
  constructor
  · intro h
    rw [h]
    exact ⟨Nat.mul_mod_left _ _, Nat.mul_div_cancel _ hpos⟩
  · rintro ⟨hmod, rfl⟩
    exact (Nat.div_mul_cancel (Nat.dvd_of_mod_eq_zero hmod)).symm

/-- A whole number that fits is not changed on its way from a float. -/
theorem toInt_truncInt64 {x : Float} (hview : view x = .finite false m e) (hk : (m : ℚ) * 2 ^ e = k)
    (hlt : k < 2 ^ 63) : (truncInt64 x).toInt = k := by
  have hmax : Int64.maxValue.toInt = 2 ^ 63 - 1 := rfl
  have hmin : Int64.minValue.toInt = -2 ^ 63 := rfl
  obtain ⟨-, hquotient⟩ := mul_zpow_eq_natCast_iff.mp hk
  rw [truncInt64, hview]
  simp only [hquotient, Bool.false_eq_true, if_false]
  rw [if_pos ⟨by omega, by omega⟩]
  exact Int64.toInt_ofInt_of_le (by omega) (by omega)

/-! ## From 32 bits to 64 bits -/

theorem onGrid_mul_zpow (hm : m < 2 ^ 53) (h1 : -1074 ≤ e) (h2 : e ≤ 971) : OnGrid (m * 2 ^ e) := by
  have hnonneg : (0 : ℚ) ≤ m * 2 ^ e := by positivity
  refine ⟨by rw [abs_of_nonneg hnonneg]; exact mul_zpow_lt hm h2, m, e, ?_, h1, by push_cast; rfl⟩
  rw [abs_of_nonneg (by omega)]
  omega

theorem exact_toFloat_shiftLeft {j : ℕ} (hm : m < 2 ^ 53) (hj : j ≤ 971) :
    (m <<< j).toFloat.isFinite = true ∧ value (m <<< j).toFloat = (m <<< j : ℕ) := by
  refine (rounds_toFloat (m <<< j)).exact ?_
  have := onGrid_mul_zpow (e := j) hm (by omega) (by omega)
  rwa [zpow_natCast, show (m : ℚ) * 2 ^ j =
    (m <<< j : ℕ) by rw [Nat.shiftLeft_eq]; push_cast; rfl] at this

/-- The quotient by a power of two is exact. -/
theorem exact_div_toFloat (hm : m < 2 ^ 24) (h1 : -149 ≤ e) (h2 : e ≤ 104) :
    let size := (m <<< e.toNat).toFloat / (1 <<< (-e).toNat).toFloat
    size.isFinite = true ∧ value size = m * 2 ^ e := by
  intro size
  obtain ⟨hfin₁, hval₁⟩ := exact_toFloat_shiftLeft (m := m) (j := e.toNat) (by omega) (by omega)
  obtain ⟨hfin₂, hval₂⟩ := exact_toFloat_shiftLeft (m := 1) (j := (-e).toNat) (by omega) (by omega)
  have hne : value (1 <<< (-e).toNat).toFloat ≠ 0 := by
    rw [hval₂, Nat.one_shiftLeft]
    positivity
  have hrounds : Rounds (value (m <<< e.toNat).toFloat / value (1 <<< (-e).toNat).toFloat) size :=
    rounds_div hfin₁ hfin₂ hne
  rw [hval₁, hval₂, ← mul_zpow_eq_div] at hrounds
  exact hrounds.exact (onGrid_mul_zpow (by omega) (by omega) (by omega))

/-- **A float of 32 bits and the one of 64 bits that is made from it stand for the same number.** -/
theorem worth?_ofSingle (x : Float32) : (view (ofSingle x)).worth? = (viewSingle x).worth? := by
  cases hview : viewSingle x with
  | nan =>
    rw [ofSingle, hview]
    decide +kernel
  | infinite negative =>
    rw [ofSingle, hview]
    cases negative <;> decide +kernel
  | finite negative m e =>
    obtain ⟨hm, h1, h2⟩ := bounds_of_viewSingle hview
    obtain ⟨hfin, hval⟩ := exact_div_toFloat hm h1 h2
    rw [worth?_view, ofSingle, hview]
    cases negative with
    | false => simp only [Bool.false_eq_true, if_false, hfin, if_true, hval, worth?, number]
    | true => simp only [if_true, isFinite_neg hfin, value_neg, hval, worth?, number]

end Binary

end Stopwatch
