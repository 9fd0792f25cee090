import Mathlib.Data.Rat.Floor
import Stopwatch.Proofs.Float.View

/-!
# Floats that are no number, and whole parts

What is no number stays what it is through every operation (`isNaN_add_left` and the like), is in no
order with anything (`not_lt_of_isNaN`, `not_le_of_isNaN`), and its whole part is the least 64-bit
number (`truncInt64_of_isNaN`). The whole part of a number that is not negative and fits is its
value rounded down (`toInt_truncInt64_eq_floor`).
-/

open Float.Model Float.Model.UnpackedFloat

namespace Stopwatch.Rounding

variable {x y : Float}

/-! ## Operations -/

theorem unpack_of_isNaN (h : x.isNaN = true) : x.toModel.unpack = .notANumber := by
  replace h : x.toModel.unpack.isNaN = true := h
  cases hu : x.toModel.unpack with
  | notANumber => rfl
  | _ => simp [hu, UnpackedFloat.isNaN] at h

/-- What is put together from no number is no number. -/
theorem isNaN_pack_notANumber :
    (Float.ofModel (Float.Model.pack .notANumber)).isNaN = true := by decide

theorem isNaN_add_left (h : x.isNaN = true) (y : Float) : (x + y).isNaN = true := by
  have hadd : x + y = Float.ofModel (Float.Model.pack (UnpackedFloat.add .binary64 x.toModel.unpack
    y.toModel.unpack)) := rfl
  rw [hadd, unpack_of_isNaN h]
  exact isNaN_pack_notANumber

theorem isNaN_add_right (x : Float) (h : y.isNaN = true) : (x + y).isNaN = true := by
  have hadd : x + y = Float.ofModel (Float.Model.pack (UnpackedFloat.add .binary64 x.toModel.unpack
    y.toModel.unpack)) := rfl
  rw [hadd, unpack_of_isNaN h]
  cases x.toModel.unpack <;> exact isNaN_pack_notANumber

theorem isNaN_sub_right (x : Float) (h : y.isNaN = true) : (x - y).isNaN = true := by
  rw [float_sub_eq]
  exact isNaN_add_right x ((isNaN_neg y).trans h)

theorem isNaN_mul_left (h : x.isNaN = true) (y : Float) : (x * y).isNaN = true := by
  have hmul : x * y = Float.ofModel (Float.Model.pack (UnpackedFloat.mul .binary64 x.toModel.unpack
    y.toModel.unpack)) := rfl
  rw [hmul, unpack_of_isNaN h]
  exact isNaN_pack_notANumber

theorem isNaN_div_left (h : x.isNaN = true) (y : Float) : (x / y).isNaN = true := by
  have hdiv : x / y = Float.ofModel (Float.Model.pack (UnpackedFloat.div .binary64 x.toModel.unpack
    y.toModel.unpack)) := rfl
  rw [hdiv, unpack_of_isNaN h]
  exact isNaN_pack_notANumber

/-! ## Order -/

/-- What is no number is compared with nothing. -/
theorem compare_of_isNaN (h : x.isNaN = true ∨ y.isNaN = true) :
    x.toModel.unpack.compare y.toModel.unpack = none := by
  rcases h with h | h
  · rw [unpack_of_isNaN h]
    rfl
  · rw [unpack_of_isNaN h]
    cases x.toModel.unpack <;> rfl

theorem not_lt_of_isNaN (h : x.isNaN = true ∨ y.isNaN = true) : ¬ x < y := by
  show ¬ decide ((x.toModel.unpack.compare y.toModel.unpack == some .lt) = true) = true
  rw [compare_of_isNaN h]
  decide

theorem not_le_of_isNaN (h : x.isNaN = true ∨ y.isNaN = true) : ¬ x ≤ y := by
  show ¬ decide ((x.toModel.unpack.compare y.toModel.unpack).any (·.isLE) = true) = true
  rw [compare_of_isNaN h]
  decide

theorem beq_of_isNaN (h : x.isNaN = true ∨ y.isNaN = true) : (x == y) = false := by
  show (x.toModel.unpack.compare y.toModel.unpack == some .eq) = false
  rw [compare_of_isNaN h]
  rfl

/-! ## Whole parts -/

theorem truncInt64_of_isNaN (h : x.isNaN = true) : Binary.truncInt64 x = Int64.minValue := by
  have hview : Binary.view x = .nan := by rw [Binary.view_eq, unpack_of_isNaN h, Binary.ofUnpacked]
  rw [Binary.truncInt64, hview]

/-- The whole part of a mantissa with an exponent is what is left of its bits. -/
theorem floor_mul_zpow (m : ℕ) (e : ℤ) :
    ⌊(m : ℚ) * 2 ^ e⌋ = ((m <<< e.toNat) >>> (-e).toNat : ℕ) := by
  rw [Binary.mul_zpow_eq_div, Rat.floor_natCast_div_natCast,
    Nat.shiftRight_eq_div_pow, ← Nat.one_shiftLeft]
  rfl

/-- **The whole part of a number that is not negative and fits is its value rounded down.** -/
theorem toInt_truncInt64_eq_floor (hnum : x.isNaN = false) (h0 : 0 ≤ value x)
    (hlt : value x < 2 ^ 63) :
    (Binary.truncInt64 x).toInt = ⌊value x⌋ := by
  have hmax : Int64.maxValue.toInt = 2 ^ 63 - 1 := rfl
  have hmin : Int64.minValue.toInt = -2 ^ 63 := rfl
  have hgrid : OnGrid (2 ^ 63) := onGrid_two_pow (by decide)
  have hfin : x.isFinite = true := by
    refine isFinite_iff.mpr ⟨hnum, ?_⟩
    rw [abs_of_nonneg h0]
    exact hlt.trans (abs_lt.mp hgrid.1).2
  have hworth := Binary.worth?_view x
  rw [if_pos hfin] at hworth
  cases hview : Binary.view x with
  | nan => simp [hview, Binary.worth?] at hworth
  | infinite negative => simp [hview, Binary.worth?] at hworth
  | finite negative m e =>
    rw [hview, Binary.worth?, Option.some_inj] at hworth
    have hfloor := floor_mul_zpow m e
    have hpos : (0 : ℚ) ≤ m * 2 ^ e := by positivity
    rw [Binary.truncInt64, hview]
    dsimp only
    rw [← hworth] at h0 hlt ⊢
    cases negative with
    | true =>
      -- A number with the sign minus that is not negative is zero.
      simp only [Binary.number, if_true] at h0 ⊢
      have hzero : (m : ℚ) * 2 ^ e = 0 := by linarith
      rw [hzero, Int.floor_zero] at hfloor
      rw [hzero, neg_zero, Int.floor_zero, ← hfloor, neg_zero, if_pos ⟨by omega, by omega⟩]
      rfl
    | false =>
      simp only [Binary.number, Bool.false_eq_true, if_false] at hlt ⊢
      have hn : ⌊(m : ℚ) * 2 ^ e⌋ < 2 ^ 63 := Int.floor_lt.mpr (by exact_mod_cast hlt)
      rw [hfloor] at hn ⊢
      generalize (m <<< e.toNat) >>> (-e).toNat = n at hn ⊢
      rw [if_pos ⟨by omega, by omega⟩]
      exact Int64.toInt_ofInt_of_le (by omega) (by omega)

end Stopwatch.Rounding
