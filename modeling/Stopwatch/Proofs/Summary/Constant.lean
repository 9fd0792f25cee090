import Stopwatch.Proofs.Float.Exact
import Stopwatch.Proofs.Float.View
import Stopwatch.Proofs.Summary.Mean

/-!
# Constant samples

The summary of one finite float many times over is exact. The mean is the float after the first
sample, and every further step adds a zero to it (`exactly_meanFrom`); the sum of squares begins
with a zero and stays one (`exactly_squaresFrom`); the median adds a zero to one of its neighbours
(`exactly_medianOf`). None of this depends on how many samples there are, also where their number is
beyond the greatest float.
-/

namespace Stopwatch

open Rounding

variable {x c : Float} {q : ℚ} {xs : List Float} {n i : ℕ}

/-! ## Whole parts -/

/-- A float with a positive whole part is not negative and within the words. -/
theorem Binary.bounds_of_truncInt64_pos (h : 0 < (truncInt64 x).toInt) :
    x.isFinite = true ∧ 0 ≤ value x ∧ value x ≤ 2 ^ 63 := by
  have hmax : Int64.maxValue.toInt = 2 ^ 63 - 1 := rfl
  have hmin : Int64.minValue.toInt = -2 ^ 63 := rfl
  have hworth := worth?_view x
  unfold truncInt64 at h
  cases hview : view x with
  | nan => simp [hview, hmin] at h
  | infinite negative => simp [hview, hmin] at h
  | finite negative m e =>
    rw [hview] at h hworth
    have hfinite : x.isFinite = true := by
      by_contra hne
      rw [if_neg hne] at hworth
      cases hworth
    rw [if_pos hfinite] at hworth
    have hvalue : number negative m e = value x := Option.some.inj hworth
    simp only at h
    generalize hk : (m <<< e.toNat) >>> (-e).toNat = k at h
    cases negative with
    | true =>
      simp only [if_true] at h
      split at h
      · rw [Int64.toInt_ofInt_of_le (by omega) (by omega)] at h
        omega
      · omega
    | false =>
      simp only [Bool.false_eq_true, if_false] at h
      split at h
      · next hrange =>
        -- The whole part is a quotient of natural numbers, and so is the float.
        have hlt : m <<< e.toNat / 2 ^ (-e).toNat < 2 ^ 63 := by
          rw [← Nat.shiftRight_eq_div_pow, hk]
          omega
        have hnat := (Nat.div_lt_iff_lt_mul (Nat.two_pow_pos _)).mp hlt
        have hden : (0 : ℚ) < ((1 <<< (-e).toNat : ℕ) : ℚ) := by
          rw [Nat.one_shiftLeft]
          exact_mod_cast Nat.two_pow_pos _
        refine ⟨hfinite, ?_, ?_⟩
        · rw [← hvalue]
          exact mul_nonneg m.cast_nonneg (two_zpow_pos e).le
        · have hquotient : value x = ((m <<< e.toNat : ℕ) : ℚ) / ((1 <<< (-e).toNat : ℕ) : ℚ) :=
            hvalue.symm.trans (mul_zpow_eq_div m e)
          rw [hquotient, div_le_iff₀ hden, Nat.one_shiftLeft]
          exact_mod_cast hnat.le
      · omega

namespace Summary

/-! ## Mean and deviation -/

theorem one_le_value_toFloat (i : ℕ) : 1 ≤ value (i + 1).toFloat := by
  refine (rounds_toFloat (i + 1)).ge_of_onGrid onGrid_one ?_
  exact_mod_cast Nat.le_add_left 1 i

/-- A zero in equal parts, however many. -/
theorem exactly_zero_div_count (hx : Exactly 0 x) (i : ℕ) : Exactly 0 (x / (i + 1).toFloat) :=
  exactly_zero_div hx (rounds_toFloat (i + 1)).isNumber (by linarith [one_le_value_toFloat i])

theorem exactly_iff_within : Exactly q x ↔ Within q q x := by
  refine ⟨fun h => ⟨h.isFinite, h.value_eq.ge, h.value_eq.le⟩,
    fun h => ⟨h.isFinite, le_antisymm h.le h.ge⟩⟩

/-- The first mean is the first sample. -/
theorem exactly_first (hx : Exactly q x) : Exactly q (0.0 + (x - 0.0) / (0 + 1).toFloat) :=
  exactly_iff_within.mpr (within_first (exactly_iff_within.mp hx))

/-- A mean that is the next sample stays what it is. -/
theorem exactly_next {m : Float} (hm : Exactly q m) (hx : Exactly q x) (i : ℕ) :
    Exactly q (m + (x - m) / (i + 1).toFloat) :=
  exactly_add_zero hm (exactly_zero_div_count (exactly_sub_self hx hm) i)

theorem exactly_meanFrom (hxs : ∀ x ∈ xs, Exactly q x) (i : ℕ) {m : Float} (hm : Exactly q m) :
    Exactly q (meanFrom i m xs) := by
  induction xs generalizing i m with
  | nil => exact hm
  | cons x xs ih =>
    obtain ⟨hx, hxs⟩ := List.forall_mem_cons.mp hxs
    exact ih hxs (i + 1) (exactly_next hm hx i)

/-- **The mean of samples of one value has this value.** -/
theorem exactly_meanOf (hxs : ∀ x ∈ xs, Exactly q x) (hne : xs ≠ []) : Exactly q (meanOf xs) := by
  cases xs with
  | nil => exact absurd rfl hne
  | cons x xs =>
    obtain ⟨hx, hxs⟩ := List.forall_mem_cons.mp hxs
    exact exactly_meanFrom hxs 1 (exactly_first hx)

theorem exactly_squaresFrom (hxs : ∀ x ∈ xs, Exactly q x) (i : ℕ)
    {m squares : Float} (hm : Exactly q m) (hsquares : Exactly 0 squares) :
    Exactly 0 (squaresFrom i m squares xs) := by
  induction xs generalizing i m squares with
  | nil => exact hsquares
  | cons x xs ih =>
    obtain ⟨hx, hxs⟩ := List.forall_mem_cons.mp hxs
    have hnext := exactly_next hm hx i
    refine ih hxs (i + 1) hnext (exactly_add_zero hsquares ?_)
    exact exactly_zero_mul (exactly_sub_self hx hm) (exactly_sub_self hx hnext).isFinite

/-- **Samples of one value do not deviate from their mean.** -/
theorem exactly_stddevOf (hxs : ∀ x ∈ xs, Exactly q x) (hlen : 2 ≤ xs.length) :
    Exactly 0 (stddevOf xs) := by
  have hcount : xs.length - 1 = (xs.length - 2) + 1 := by omega
  rw [stddevOf, hcount]
  refine exactly_sqrt_zero (exactly_zero_div_count ?_ _)
  cases xs with
  | nil => exact exactly_zero
  | cons x xs =>
    obtain ⟨hx, hxs⟩ := List.forall_mem_cons.mp hxs
    -- The first distance is the sample itself, and what is left of it after the first mean is zero.
    have hfirst := exactly_first hx
    refine exactly_squaresFrom hxs 1 hfirst (exactly_add_zero exactly_zero ?_)
    exact exactly_mul_zero (exactly_sub_zero hx exactly_zero).isFinite (exactly_sub_self hx hfirst)

/-! ## The median -/

theorem exactly_getD (hxs : ∀ x ∈ xs, Exactly q x) (hi : i < xs.length) :
    Exactly q (xs.getD i 0.0) := by
  rw [List.getD_eq_getElem xs 0.0 hi]
  exact hxs _ (List.getElem_mem hi)

/-- What is left of a float without its positive whole part is finite. -/
theorem isFinite_fraction (h : 0 < (Binary.truncInt64 x).toInt) :
    (x - Binary.ofInt64 (Int64.ofInt (Binary.truncInt64 x).toInt)).isFinite = true := by
  have hgrid : OnGrid (2 ^ 63) := onGrid_two_pow (by decide)
  obtain ⟨hfinite, hlow, hhigh⟩ := Binary.bounds_of_truncInt64_pos h
  rw [Int64.ofInt_toInt]
  have hpos : (0 : ℚ) ≤ (Binary.truncInt64 x).toInt := by exact_mod_cast h.le
  have hlt : ((Binary.truncInt64 x).toInt : ℚ) ≤ 2 ^ 63 := by exact_mod_cast (Int64.toInt_lt _).le
  obtain ⟨hwhole, hwlow, hwhigh⟩ :=
    (rounds_ofInt64 (Binary.truncInt64 x)).between onGrid_zero hgrid hpos hlt
  exact ((rounds_sub hfinite hwhole).between hgrid.neg hgrid (by linarith) (by linarith)).1

/-- **The median of samples of one value has this value**: between two of them there is nothing to
interpolate. -/
theorem exactly_medianOf (hxs : ∀ x ∈ xs, Exactly q x) (hne : xs ≠ []) :
    Exactly q (medianOf xs) := by
  simp only [medianOf]
  generalize 1.0 / 3.0 + 0.5 * (xs.length.toFloat + 1.0 / 3.0) = position
  split
  · obtain ⟨x, xs, rfl⟩ := List.exists_cons_of_ne_nil hne
    exact hxs x List.mem_cons_self
  · next hpos =>
    split
    · rw [List.getLastD_eq_getLast?, List.getLast?_eq_some_getLast hne]
      exact hxs _ (List.getLast_mem hne)
    · next hlt =>
      have ha := exactly_getD hxs (i := (Binary.truncInt64 position).toInt.toNat - 1) (by omega)
      have hb := exactly_getD hxs (i := (Binary.truncInt64 position).toInt.toNat) (by omega)
      exact exactly_add_zero ha (exactly_mul_zero (isFinite_fraction (not_le.mp hpos))
        (exactly_sub_self hb ha))

/-! ## The summary -/

theorem sorted_replicate (n : ℕ) (c : Float) :
    sorted (List.replicate n c) = List.replicate n c := by
  have hboth : hasBothZeros (List.replicate n c) = false := by
    rw [hasBothZeros, Bool.and_eq_false_iff, List.any_eq_false, List.any_eq_false]
    by_cases hzero : (c.toBits == 0) = true
    · right
      intro x hx
      rw [List.eq_of_mem_replicate hx, eq_of_beq hzero]
      decide
    · left
      intro x hx
      rwa [List.eq_of_mem_replicate hx]
  rw [sorted, hboth, if_neg Bool.false_ne_true]
  exact List.perm_replicate.mp (List.mergeSort_perm _ _)

/-- The coefficient of variation is zero, without a division if the mean is zero. -/
theorem exactly_variation {mean sd : Float} (hmean : Exactly q mean) (hsd : Exactly 0 sd) :
    Exactly 0 (if mean == 0.0 then 0.0 else 100.0 * sd / mean) := by
  split
  · exact exactly_zero
  · next hne =>
    refine exactly_zero_div (exactly_mul_zero rfl hsd) hmean.isNumber fun hzero => hne ?_
    exact (beq_iff hmean.isNumber isNaN_zero).mpr (hzero.trans value_zero.symm)

/-- A summary tells of `n` samples that are all the same number, and of no distance between them.
Zeros are equal here whatever their signs, and what is no number is equal to nothing. -/
structure TellsConstant (n : ℕ) (c : Float) (s : Summary) : Prop where
  n_eq : s.n = n
  hasSpread : s.hasSpread = true
  mean : (s.mean == c) = true
  min : (s.min == c) = true
  max : (s.max == c) = true
  median : (s.median == c) = true
  stddev : (s.stddev == 0.0) = true
  variation : (s.variation == 0.0) = true

/-- **Constant samples have no spread**, and all else is the constant: for every finite float and
any number of samples from two on. -/
theorem summary_of_constant (hc : c.isFinite = true) (hn : 2 ≤ n) :
    TellsConstant n c (ofSamples (List.replicate n c)) := by
  have hsame : ∀ x ∈ List.replicate n c, Exactly (value c) x := by
    intro x hx
    rw [List.eq_of_mem_replicate hx]
    exact ⟨hc, rfl⟩
  have hne : List.replicate n c ≠ [] := by
    rw [Ne, List.replicate_eq_nil_iff]
    omega
  have hmean := exactly_meanOf hsame hne
  have hsd := exactly_stddevOf hsame (by rwa [List.length_replicate])
  have hmedian := exactly_medianOf hsame hne
  have hc : Exactly (value c) c := ⟨hc, rfl⟩
  have hfirst : (List.replicate n c).headD 0.0 = c := by
    rw [List.headD_eq_head?_getD, List.head?_replicate, if_neg (by omega)]
    rfl
  have hlast : (List.replicate n c).getLastD 0.0 = c := by
    rw [List.getLastD_eq_getLast?, List.getLast?_replicate, if_neg (by omega)]
    rfl
  rw [ofSamples_eq, if_neg (by rwa [List.isEmpty_iff]), List.length_replicate, sorted_replicate]
  simp only [ofSorted, if_neg (not_lt.mpr hn), hfirst, hlast]
  exact {
    n_eq := rfl
    hasSpread := rfl
    mean := hmean.beq hc
    min := hc.beq hc
    max := hc.beq hc
    median := hmedian.beq hc
    stddev := hsd.beq exactly_zero
    variation := (exactly_variation hmean hsd).beq exactly_zero }

/-- The greatest float a thousand times. -/
theorem summary_of_constant_greatest :
    ((Float.ofBits 0x7FEFFFFFFFFFFFFF).isFinite = true ∧ 2 ≤ 1000) ∧
      TellsConstant 1000 (Float.ofBits 0x7FEFFFFFFFFFFFFF)
        (ofSamples (List.replicate 1000 (Float.ofBits 0x7FEFFFFFFFFFFFFF))) :=
  ⟨⟨rfl, by decide⟩, summary_of_constant rfl (by decide)⟩

end Summary

end Stopwatch
