import Stopwatch.Proofs.Float.Exact
import Stopwatch.Proofs.Sorting.Stability
import Stopwatch.Proofs.Summary.Mean

/-!
# The order of samples does not matter

A duration counted in a unit is a number and never the zero with the sign minus
(`regular_fromDurations`). Among such samples equal ones are the same float, so that there is only
one way to put them in increasing order (`eq_sorted_of_ascending`), and all that is computed is
computed from the samples in this order.

A summary is made of a copy of the samples. The arrays that were there before keep theirs, the one
that is summarized included (`read_summarize`).
-/

namespace Stopwatch.Summary

open Rounding

variable {x y : Float} {xs ys : List Float} {ds es : List Duration} {d unit : Duration}

/-! ## Regular samples -/

/-- A number other than the zero with the sign minus. -/
structure Regular (x : Float) : Prop where
  isNumber : x.isNaN = false
  ne_minus_zero : x ≠ -0.0

theorem Regular.eq_of_value_eq (hx : Regular x) (hy : Regular y) (h : value x = value y) : x = y :=
  Rounding.eq_of_value_eq hx.isNumber hy.isNumber hx.ne_minus_zero hy.ne_minus_zero h

theorem hasBothZeros_of_regular (h : ∀ x ∈ xs, Regular x) : hasBothZeros xs = false := by
  rw [hasBothZeros, Bool.and_eq_false_iff]
  right
  rw [List.any_eq_false]
  intro x hx hbits
  exact (h x hx).ne_minus_zero (eq_of_toBits_eq (eq_of_beq hbits))

/-- Regular samples come one before another by their values. -/
theorem follows_sampleBefore (h : ∀ x ∈ xs, Regular x) : Sorting.Follows value sampleBefore xs := by
  intro x hx y hy
  have hnx := (h x hx).isNumber
  have hny := (h y hy).isNumber
  rw [sampleBefore, hnx, hny]
  simp [lt_iff hnx hny]

theorem sorts_sorted (h : ∀ x ∈ xs, Regular x) : Sorting.Sorts value xs (sorted xs) := by
  rw [sorted, hasBothZeros_of_regular h, if_neg Bool.false_ne_true]
  exact Sorting.sorts_mergeSort_before (follows_sampleBefore h)

theorem perm_sorted (h : ∀ x ∈ xs, Regular x) : (sorted xs).Perm xs := by
  rw [sorted, hasBothZeros_of_regular h, if_neg Bool.false_ne_true]
  exact List.mergeSort_perm _ _

/-- **There is one increasing order of regular samples**, in whatever order they come and however
they are sorted. -/
theorem eq_sorted_of_ascending (h : ∀ x ∈ xs, Regular x) (hperm : ys.Perm xs)
    (hys : ys.Pairwise (value · ≤ value ·)) : ys = sorted xs := by
  refine List.Perm.eq_of_pairwise ?_ hys (sorts_sorted h).sorted (hperm.trans (perm_sorted h).symm)
  intro x y hx hy hxy hyx
  have hrx := h x (hperm.mem_iff.mp hx)
  have hry := h y ((perm_sorted h).mem_iff.mp hy)
  exact hrx.eq_of_value_eq hry (le_antisymm hxy hyx)

theorem sorted_eq_of_perm (h : ∀ x ∈ xs, Regular x) (hperm : ys.Perm xs) :
    sorted ys = sorted xs := by
  have hys : ∀ y ∈ ys, Regular y := fun y hy => h y (hperm.mem_iff.mp hy)
  exact eq_sorted_of_ascending h ((perm_sorted hys).trans hperm) (sorts_sorted hys).sorted

theorem ofSamples_eq_of_perm (h : ∀ x ∈ xs, Regular x) (hperm : ys.Perm xs) :
    ofSamples ys = ofSamples xs := by
  rw [ofSamples_eq, ofSamples_eq, hperm.isEmpty_eq, hperm.length_eq, sorted_eq_of_perm h hperm]

/-! ## Durations -/

theorem value_toFloat_unit (h : 0 < unit.toInt) :
    unit.toFloat.isFinite = true ∧ 1 ≤ value unit.toFloat ∧ value unit.toFloat ≤ 2 ^ 63 := by
  have hlow : (1 : ℚ) ≤ unit.toInt := by exact_mod_cast h
  have hhigh : (unit.toInt : ℚ) ≤ 2 ^ 63 := by exact_mod_cast (Int64.toInt_lt unit.ns).le
  exact (rounds_toFloat_duration unit).between onGrid_one (onGrid_two_pow (by decide)) hlow hhigh

theorem value_toFloat_bounds (d : Duration) : d.toFloat.isFinite = true ∧
    |value d.toFloat| ≤ 2 ^ 63 := by
  have hgrid : OnGrid (2 ^ 63) := onGrid_two_pow (by decide)
  have hlow : -2 ^ 63 ≤ (d.toInt : ℚ) := by exact_mod_cast Int64.le_toInt d.ns
  have hhigh : (d.toInt : ℚ) ≤ 2 ^ 63 := by exact_mod_cast (Int64.toInt_lt d.ns).le
  obtain ⟨hfinite, hbounds⟩ := (rounds_toFloat_duration d).between hgrid.neg hgrid hlow hhigh
  exact ⟨hfinite, abs_le.mpr hbounds⟩

/-- **A duration counted in a unit is a number and not the zero with the sign minus.** A duration
that is not negative has the sign plus, and a negative one does not become zero. -/
theorem regular_div (h : 0 < unit.toInt) : Regular (d.toFloat / unit.toFloat) := by
  obtain ⟨hu, hlow, hhigh⟩ := value_toFloat_unit h
  obtain ⟨hd, hbounds⟩ := value_toFloat_bounds d
  have hne : value unit.toFloat ≠ 0 := by linarith
  have hround := rounds_div hd hu hne
  refine ⟨hround.isNumber, ?_⟩
  intro hzero
  by_cases hneg : d.toInt < 0
  · have hone : value d.toFloat ≤ -1 := by
      refine (rounds_toFloat_duration d).le_of_onGrid onGrid_one.neg ?_
      exact_mod_cast Int.le_sub_one_of_lt hneg
    have hquot : value d.toFloat / value unit.toFloat ≤ -2 ^ (-63 : ℤ) := by
      rw [div_le_iff₀ (by linarith)]
      have : 2 ^ (-63 : ℤ) * value unit.toFloat ≤ 2 ^ (-63 : ℤ) * 2 ^ 63 :=
        mul_le_mul_of_nonneg_left hhigh (two_zpow_pos _).le
      norm_num at this ⊢
      linarith
    have hle := hround.le_of_onGrid (onGrid_two_zpow_of_nonpos (by decide) (by decide)).neg hquot
    rw [hzero] at hle
    have hvalue : value (-0.0) = 0 := rfl
    rw [hvalue] at hle
    exact absurd hle (by norm_num)
  · have hplus := plus_div (plus_toFloat (not_lt.mp hneg)) (plus_toFloat h.le) hd hu hne
    rw [hzero] at hplus
    cases hplus

theorem regular_fromDurations (hx : x ∈ fromDurations ds unit) : Regular x := by
  simp only [fromDurations] at hx
  obtain ⟨d, -, rfl⟩ := List.mem_map.mp hx
  split
  · exact regular_div (by decide)
  · next h => exact regular_div (not_le.mp h)

/-! ## Arrays -/

/-- **Arrays that are there keep their samples** while one of them is summarized. -/
theorem read_summarize (i : ℕ) (m : Arrays) {j : ℕ} (hj : j < m.held.length) :
    (summarize i m).2.read j = m.read j := by
  simp only [summarize]
  split
  · rfl
  · exact (Arrays.read_write_of_ne hj.ne).trans (Arrays.read_make_of_lt hj)

/-- **Summaries do not depend on the order of the durations**, in any unit and down to the bits, and
summarizing an array changes neither it nor any other one that is there. -/
theorem summary_ignores_order (h : es.Perm ds) (unit : Duration) :
    ofSamples (fromDurations es unit) = ofSamples (fromDurations ds unit) ∧
      ∀ (m : Arrays) (i : ℕ), (summarize i m).1 = ofSamples (m.read i) ∧
        ∀ j < m.held.length, (summarize i m).2.read j = m.read j := by
  have hperm : (fromDurations es unit).Perm (fromDurations ds unit) := h.map _
  refine ⟨ofSamples_eq_of_perm (fun x hx => regular_fromDurations hx) hperm, fun m i => ⟨?_, ?_⟩⟩
  · rw [fst_summarize, ofSamples_eq]
  · exact fun j hj => read_summarize i m hj

/-- Durations on both sides of zero, in milliseconds. -/
theorem summary_ignores_order_of_three :
    List.Perm [Duration.ofInt 3, .ofInt (-7), .ofInt 0] [.ofInt (-7), .ofInt 0, .ofInt 3] ∧
      ofSamples (fromDurations [.ofInt 3, .ofInt (-7), .ofInt 0] .millisecond) =
        ofSamples (fromDurations [.ofInt (-7), .ofInt 0, .ofInt 3] .millisecond) :=
  ⟨by decide, (summary_ignores_order (by decide) .millisecond).1⟩

end Stopwatch.Summary
