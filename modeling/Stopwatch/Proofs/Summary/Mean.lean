import Stopwatch.Proofs.Float.Arithmetic
import Stopwatch.Summary

/-!
# The mean stays among the samples

The running mean of samples is computed with one rounding per operation. It still never leaves the
interval that the samples lie in: the rounded step towards the next sample does not overshoot it. So
the mean of durations that are not negative is a number and not negative (`mean_ofDurations`).

The step is the quotient of a rounded difference by a number that is at least two. A power of two
next to the exact difference shows that it is no longer than the difference itself (`abs_step_le`).
-/

namespace Stopwatch.Summary

open Rounding

variable {lo hi d : ℚ} {x y m k : Float} {xs : List Float} {i : ℕ} {ds : List Duration}

/-! ## One step -/

/-- The sample is finite and lies between two numbers. -/
structure Within (lo hi : ℚ) (x : Float) : Prop where
  isFinite : x.isFinite = true
  ge : lo ≤ value x
  le : value x ≤ hi

/-- The numbers of the grid are multiples of the least one. -/
theorem exists_int_of_onGrid {g : ℚ} (h : OnGrid g) : ∃ k : ℤ, g = k * 2 ^ (-1074 : ℤ) := by
  obtain ⟨-, m, e, -, he, rfl⟩ := h
  exact ⟨_, mul_zpow_of_le he m⟩

theorem least_le_abs (hx : x.isFinite = true) (hm : m.isFinite = true)
    (hne : value x - value m ≠ 0) :
    (2 : ℚ) ^ (-1074 : ℤ) ≤ |value x - value m| := by
  obtain ⟨a, ha⟩ := exists_int_of_onGrid (onGrid_value hx)
  obtain ⟨b, hb⟩ := exists_int_of_onGrid (onGrid_value hm)
  rw [ha, hb, ← sub_mul, ← Int.cast_sub] at hne ⊢
  have hab : 1 ≤ |a - b| := by
    refine Int.one_le_abs fun h => hne ?_
    rw [h, Int.cast_zero, zero_mul]
  have hcast : (1 : ℚ) ≤ |((a - b : ℤ) : ℚ)| := by exact_mod_cast hab
  rw [abs_mul, abs_of_pos (two_zpow_pos _)]
  exact le_mul_of_one_le_left (two_zpow_pos _).le hcast

/-- A rounded difference divided by a number of at least two is no longer than the exact difference.
-/
theorem abs_step_le (hd : Rounds d y) (hy : y.isFinite = true) (hlt : |d| < beyond)
    (hleast : d ≠ 0 → (2 : ℚ) ^ (-1074 : ℤ) ≤ |d|) (hk : k.isNaN = false) (h2 : 2 ≤ value k) :
    (y / k).isNaN = false ∧ |value (y / k)| ≤ |d| := by
  by_cases hkf : k.isFinite = true
  · have hr := rounds_div hy hkf (by linarith)
    refine ⟨hr.isNumber, ?_⟩
    by_cases h0 : d = 0
    · have hy0 : value y = 0 := (hd.exact (h0 ▸ onGrid_zero)).2.trans h0
      rw [hy0, zero_div] at hr
      rw [(hr.exact onGrid_zero).2, h0]
    · -- With `2 ^ j ≤ |d| < 2 ^ (j + 1)` the rounded difference is at most `2 ^ (j + 1)`, its half
      -- at most `2 ^ j`.
      obtain ⟨j, hj1, hj2⟩ := exists_mem_Ico_zpow (abs_pos.mpr h0) (by norm_num : (1 : ℚ) < 2)
      have hj : -1074 ≤ j := by
        have := (zpow_lt_zpow_iff_right₀ (by norm_num : (1 : ℚ) < 2)).mp ((hleast h0).trans_lt hj2)
        omega
      have hgrid : OnGrid ((2 : ℚ) ^ j) := onGrid_two_zpow hj (hj1.trans_lt hlt)
      have hy2 : |value y| ≤ 2 ^ (j + 1) := by
        by_cases hb : (2 : ℚ) ^ (j + 1) < beyond
        · have hgrid2 := onGrid_two_zpow (by omega) hb
          obtain ⟨h3, h4⟩ := abs_le.mp hj2.le
          exact abs_le.mpr ⟨hd.ge_of_onGrid hgrid2.neg h3, hd.le_of_onGrid hgrid2 h4⟩
        · exact (abs_value_le y).trans (not_lt.mp hb)
      have hquot : |value y / value k| ≤ 2 ^ j := by
        rw [abs_div, abs_of_pos (by linarith : 0 < value k), div_le_iff₀ (by linarith)]
        calc |value y| ≤ 2 ^ (j + 1) := hy2
          _ = 2 ^ j * 2 := zpow_add_one₀ two_ne_zero j
          _ ≤ 2 ^ j * value k := mul_le_mul_of_nonneg_left h2 (two_zpow_pos j).le
      obtain ⟨h3, h4⟩ := abs_le.mp hquot
      exact (abs_le.mpr ⟨hr.ge_of_onGrid hgrid.neg h3, hr.le_of_onGrid hgrid h4⟩).trans hj1
  · have hr := rounds_div_of_not_finite hy hk hkf
    refine ⟨hr.isNumber, ?_⟩
    rw [(hr.exact onGrid_zero).2, abs_zero]
    exact abs_nonneg d

/-- The step goes towards the next sample. -/
theorem step_sign (hd : Rounds d y) (hy : y.isFinite = true)
    (hk : k.isNaN = false) (h2 : 2 ≤ value k) :
    (0 ≤ d → 0 ≤ value (y / k)) ∧ (d ≤ 0 → value (y / k) ≤ 0) := by
  by_cases hkf : k.isFinite = true
  · have hr := rounds_div hy hkf (by linarith)
    have hpos : 0 ≤ value k := by linarith
    exact ⟨fun h => hr.nonneg (div_nonneg (hd.nonneg h) hpos),
      fun h => hr.nonpos (div_nonpos_of_nonpos_of_nonneg (hd.nonpos h) hpos)⟩
  · rw [((rounds_div_of_not_finite hy hk hkf).exact onGrid_zero).2]
    exact ⟨fun _ => le_rfl, fun _ => le_rfl⟩

/-- **The next mean lies between the mean and the sample.** -/
theorem within_step (hlo : 0 ≤ lo) (hm : Within lo hi m)
    (hx : Within lo hi x) (hk : k.isNaN = false) (h2 : 2 ≤ value k) :
    Within lo hi (m + (x - m) / k) := by
  have hgx := onGrid_value hx.isFinite
  have hgm := onGrid_value hm.isFinite
  have hx0 : 0 ≤ value x := hlo.trans hx.ge
  have hm0 : 0 ≤ value m := hlo.trans hm.ge
  have hd := rounds_sub hx.isFinite hm.isFinite
  set d := value x - value m with hdef
  -- The difference of two numbers that are not negative is no larger than one of them.
  obtain ⟨g, hg, hdg⟩ : ∃ g, OnGrid g ∧ |d| ≤ g := by
    rcases le_total (value m) (value x) with h | h
    · refine ⟨value x, hgx, ?_⟩
      rw [abs_of_nonneg (by linarith)]
      linarith
    · refine ⟨value m, hgm, ?_⟩
      rw [abs_of_nonpos (by linarith)]
      linarith
  have hlt : |d| < beyond := hdg.trans_lt ((le_abs_self g).trans_lt hg.1)
  have hy := (hd.between hg.neg hg (abs_le.mp hdg).1 (abs_le.mp hdg).2).1
  obtain ⟨hnum, hstep⟩ := abs_step_le hd hy hlt (least_le_abs hx.isFinite hm.isFinite) hk h2
  obtain ⟨hpos, hneg⟩ := step_sign hd hy hk h2
  have hfin : ((x - m) / k).isFinite = true := isFinite_iff.mpr ⟨hnum, hstep.trans_lt hlt⟩
  have hsum := rounds_add hm.isFinite hfin
  obtain ⟨h3, h4⟩ := abs_le.mp hstep
  rcases le_total (value m) (value x) with h | h
  · rw [abs_of_nonneg (by linarith)] at h4
    have hpos := hpos (by linarith)
    obtain ⟨hf, hge, hle⟩ := hsum.between hgm hgx (by linarith) (by linarith)
    exact ⟨hf, hm.ge.trans hge, hle.trans hx.le⟩
  · rw [abs_of_nonpos (by linarith)] at h3
    have hneg := hneg (by linarith)
    obtain ⟨hf, hge, hle⟩ := hsum.between hgx hgm (by linarith) (by linarith)
    exact ⟨hf, hx.ge.trans hge, hle.trans hm.le⟩

/-! ## The whole mean -/

theorem two_le_value_toFloat (hi : 1 ≤ i) : 2 ≤ value (i + 1).toFloat := by
  have h2 : OnGrid 2 := onGrid_nat (n := 2) (by decide)
  refine (rounds_toFloat (i + 1)).ge_of_onGrid h2 ?_
  exact_mod_cast Nat.succ_le_succ hi

theorem meanFrom_within (hlo : 0 ≤ lo) (hxs : ∀ x ∈ xs, Within lo hi x) :
    ∀ (i : ℕ) (m : Float), 1 ≤ i → Within lo hi m → Within lo hi (meanFrom i m xs) := by
  induction xs with
  | nil => exact fun _ _ _ hm => hm
  | cons x xs ih =>
    intro i m hi hm
    refine ih (fun y hy => hxs y (List.mem_cons_of_mem x hy)) (i + 1) _ (by omega) ?_
    exact within_step hlo hm (hxs x List.mem_cons_self) (rounds_toFloat (i + 1)).isNumber
      (two_le_value_toFloat hi)

/-- The first mean is the first sample. -/
theorem within_first (hx : Within lo hi x) : Within lo hi (0.0 + (x - 0.0) / (0 + 1).toFloat) := by
  have hgx := onGrid_value hx.isFinite
  have hzf : (0.0 : Float).isFinite = true := rfl
  obtain ⟨hof, hov⟩ := (rounds_toFloat (0 + 1)).exact (onGrid_nat (by decide))
  rw [zero_add, Nat.cast_one] at hov
  have hsub := rounds_sub hx.isFinite hzf
  rw [value_zero, sub_zero] at hsub
  obtain ⟨hsf, hsv⟩ := hsub.exact hgx
  have hdiv := rounds_div hsf hof (by rw [hov]; exact one_ne_zero)
  rw [hsv, hov, div_one] at hdiv
  obtain ⟨hdf, hdv⟩ := hdiv.exact hgx
  have hsum := rounds_add hzf hdf
  rw [value_zero, hdv, zero_add] at hsum
  obtain ⟨hf, hv⟩ := hsum.exact hgx
  exact ⟨hf, hv ▸ hx.ge, hv ▸ hx.le⟩

/-- **The mean of samples lies in every interval that the samples lie in.** -/
theorem meanOf_within (hlo : 0 ≤ lo) (hne : xs ≠ []) (hxs : ∀ x ∈ xs, Within lo hi x) :
    Within lo hi (meanOf xs) := by
  cases xs with
  | nil => exact absurd rfl hne
  | cons x xs =>
    refine meanFrom_within hlo (fun y hy => hxs y (List.mem_cons_of_mem x hy)) 1 _ le_rfl ?_
    exact within_first (hxs x List.mem_cons_self)

/-! ## Durations -/

/-- A duration that is not negative has the sign plus. -/
theorem plus_toFloat {d : Duration} (h : 0 ≤ d.toInt) : Plus d.toFloat.toModel.unpack := by
  have hns : ¬ d.ns < 0 := fun hlt => absurd (Int64.lt_iff_toInt_lt.mp hlt) (not_lt.mpr h)
  rw [Duration.toFloat, Binary.ofInt64, if_neg hns]
  exact plus_toFloat_word _

theorem rounds_toFloat_duration (d : Duration) : Rounds d.toInt d.toFloat := rounds_ofInt64 d.ns

theorem value_second : Duration.second.toFloat.isFinite = true ∧
    value Duration.second.toFloat = 1000000000 := by
  have h := (rounds_toFloat_duration Duration.second).exact (onGrid_int (by decide))
  have hint : Duration.second.toInt = 1000000000 := by decide
  rw [hint] at h
  exact_mod_cast h

/-- A duration in seconds is finite, and not negative if the duration is not. -/
theorem within_seconds {d : Duration} (h : 0 ≤ d.toInt) :
    Within 0 (2 ^ 63) (d.toFloat / Duration.second.toFloat) ∧
      Plus (d.toFloat / Duration.second.toFloat).toModel.unpack := by
  have hgrid : OnGrid (2 ^ 63) := onGrid_two_pow (by decide)
  have h0 : (0 : ℚ) ≤ d.toInt := by exact_mod_cast h
  have hlt : (d.toInt : ℚ) ≤ 2 ^ 63 := by exact_mod_cast (Int64.toInt_lt d.ns).le
  obtain ⟨hf, hge, hle⟩ := (rounds_toFloat_duration d).between onGrid_zero hgrid h0 hlt
  obtain ⟨hsf, hsv⟩ := value_second
  have hsne : value Duration.second.toFloat ≠ 0 := by
    rw [hsv]
    norm_num
  refine ⟨?_, plus_div (plus_toFloat h) (plus_toFloat (by decide)) hf hsf hsne⟩
  have hquot : value d.toFloat / value Duration.second.toFloat ≤ 2 ^ 63 := by
    rw [hsv, div_le_iff₀ (by norm_num)]
    linarith
  obtain ⟨hqf, hqge, hqle⟩ := (rounds_div hf hsf hsne).between onGrid_zero hgrid
    (div_nonneg hge (by rw [hsv]; norm_num)) hquot
  exact ⟨hqf, hqge, hqle⟩

/-- Samples with the sign plus are sorted by comparisons alone. -/
theorem sorted_perm_of_plus (h : ∀ x ∈ xs, Plus x.toModel.unpack) : (sorted xs).Perm xs := by
  have hboth : hasBothZeros xs = false := by
    rw [hasBothZeros, Bool.and_eq_false_iff]
    right
    rw [List.any_eq_false]
    -- A zero with the sign minus is told by its bits, and none of the samples has them.
    intro x hx hbits
    have heq : x.toModel = (-0.0 : Float).toModel := by
      have htb : x.toModel.toBits = (-0.0 : Float).toModel.toBits := eq_of_beq hbits
      cases hx : x.toModel
      cases hz : (-0.0 : Float).toModel
      simpa [hx, hz] using htb
    have hplus := h x hx
    have hzero : (-0.0 : Float).toModel.unpack = .zero .negative := rfl
    rw [heq, hzero] at hplus
    exact absurd hplus (by simp [Plus])
  rw [sorted, hboth]
  exact List.mergeSort_perm _ _

/-- **The mean of durations that are not negative is a number and not negative.** -/
theorem mean_ofDurations (h : ∀ d ∈ ds, 0 ≤ d.toInt) :
    (ofDurations ds).mean.isNaN = false ∧ 0 ≤ value (ofDurations ds).mean := by
  have hsec : ¬ Duration.second.toInt ≤ 0 := by decide
  have hsamples : ∀ x ∈ fromDurations ds Duration.second, Within 0 (2 ^ 63) x ∧
      Plus x.toModel.unpack := by
    intro x hx
    simp only [fromDurations, if_neg hsec] at hx
    obtain ⟨d, hd, rfl⟩ := List.mem_map.mp hx
    exact within_seconds (h d hd)
  rw [ofDurations]
  generalize fromDurations ds Duration.second = xs at hsamples
  have hperm := sorted_perm_of_plus fun x hx => (hsamples x hx).2
  by_cases hne : xs.isEmpty
  · have : ofSamples xs = {} := by rw [ofSamples_eq, if_pos hne]
    rw [this]
    exact ⟨isNaN_zero, value_zero.ge⟩
  · have hmean : (ofSamples xs).mean = meanOf (sorted xs) := by
      rw [ofSamples_eq, if_neg hne, ofSorted]
      dsimp only
      split <;> rfl
    have hsorted : sorted xs ≠ [] := by
      intro h0
      rw [h0] at hperm
      exact hne (List.isEmpty_iff.mpr hperm.nil_eq.symm)
    obtain ⟨hf, hge, -⟩ := meanOf_within le_rfl hsorted fun x hx =>
      (hsamples x (hperm.mem_iff.mp hx)).1
    rw [hmean]
    exact ⟨(isFinite_iff.mp hf).1, hge⟩

end Stopwatch.Summary
