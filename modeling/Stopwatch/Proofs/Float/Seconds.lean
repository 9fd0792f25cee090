import Stopwatch.Duration
import Stopwatch.Proofs.Float.NotANumber

/-!
# Seconds, minutes and hours as floats

A duration in some unit is the sum of two floats, its whole units and the rest of them. In seconds
it is finite, and a duration that is not zero does not become zero: from one nanosecond on it counts
at least `2 ^ -30` seconds, on its own side of zero (`seconds_of_pos`, `seconds_of_neg`).

The sum may round up to the next whole number, and then its whole part is one unit too many. This
does not happen to a duration that leaves some of its last unit free, a part in 4096 of it
(`toInt_truncInt64_inUnits`).
-/

namespace Stopwatch.Rounding

variable {d unit : Duration} {n u : ℤ}

theorem toInt_second : Duration.second.toInt = 1000000000 := by decide

theorem toInt_minute : Duration.minute.toInt = 60000000000 := by decide

theorem toInt_hour : Duration.hour.toInt = 3600000000000 := by decide

theorem value_billion : value 1e9 = 1000000000 := by decide +kernel

/-- A unit from a second on that is a float. -/
structure LongUnit (unit : Duration) : Prop where
  second_le : 1000000000 ≤ unit.toInt
  le_exact : unit.toInt ≤ 2 ^ 53

theorem longUnit_second : LongUnit Duration.second := ⟨by decide, by decide⟩

theorem longUnit_minute : LongUnit Duration.minute := ⟨by decide, by decide⟩

theorem longUnit_hour : LongUnit Duration.hour := ⟨by decide, by decide⟩

theorem LongUnit.exact (h : LongUnit unit) : unit.toFloat.isFinite = true ∧
    value unit.toFloat = unit.toInt := by
  have hlow : -2 ^ 53 ≤ unit.toInt := le_trans (by decide) h.second_le
  exact (rounds_ofInt64 unit.ns).exact (onGrid_int (abs_le.mpr ⟨hlow, h.le_exact⟩))

theorem LongUnit.pos (h : LongUnit unit) : (0 : ℚ) < unit.toInt := by
  have hpos : 0 < unit.toInt := by
    have := h.second_le
    omega
  exact_mod_cast hpos

/-! ## Whole units and the rest -/

/-- The whole units and the rest of a duration. -/
structure Parts (d unit : Duration) (whole rest : ℤ) : Prop where
  whole_eq : whole = d.toInt.tdiv unit.toInt
  rest_eq : rest = d.toInt.tmod unit.toInt
  toInt_whole : (d.ns / unit.ns).toInt = whole
  toInt_rest : (d.ns % unit.ns).toInt = rest

theorem exists_parts (d : Duration) (h : LongUnit unit) :
    ∃ whole rest, Parts d unit whole rest := by
  have hne : unit.ns ≠ -1 := by
    intro heq
    have hsecond := h.second_le
    rw [Duration.toInt, heq] at hsecond
    exact absurd hsecond (by decide)
  exact ⟨_, _, rfl, rfl, Int64.toInt_div_of_ne_right _ _ hne, Int64.toInt_mod _ _⟩

theorem ediv_emod_bounds (h0 : 0 ≤ n) (hn : n ≤ 2 ^ 63) (hu : 1000000000 ≤ u) :
    (0 ≤ n / u ∧ n / u ≤ 2 ^ 34 - 1) ∧ (0 ≤ n % u ∧ n % u < u) ∧
      (1 ≤ n / u ∨ 1 ≤ n % u ↔ 0 < n) := by
  have hdiv : 0 ≤ n / u := Int.ediv_nonneg h0 (by omega)
  have hmod : 0 ≤ n % u := Int.emod_nonneg n (by omega)
  have heq : u * (n / u) + n % u = n := Int.mul_ediv_add_emod n u
  have hle : 1000000000 * (n / u) ≤ u * (n / u) := Int.mul_le_mul_of_nonneg_right hu hdiv
  refine ⟨⟨hdiv, by omega⟩, ⟨hmod, Int.emod_lt_of_pos n (by omega)⟩, by omega, fun hpos => ?_⟩
  by_contra hnone
  have hzero : n / u = 0 := by omega
  rw [hzero, mul_zero] at heq
  omega

variable {whole rest : ℤ}

/-- Both parts lie on the side of the duration, and one of them is not zero unless the duration is.
-/
theorem Parts.bounds (h : Parts d unit whole rest) (hunit : LongUnit unit) :
    (|whole| ≤ 2 ^ 34 - 1 ∧ |rest| ≤ unit.toInt) ∧
      (0 ≤ d.toInt → 0 ≤ whole ∧ 0 ≤ rest) ∧ (d.toInt ≤ 0 → whole ≤ 0 ∧ rest ≤ 0) ∧
      (0 < d.toInt → 1 ≤ whole ∨ 1 ≤ rest) ∧ (d.toInt < 0 → whole ≤ -1 ∨ rest ≤ -1) := by
  have hle : -2 ^ 63 ≤ d.toInt := Int64.le_toInt d.ns
  have hlt : d.toInt < 2 ^ 63 := Int64.toInt_lt d.ns
  have hwhole := h.whole_eq
  have hrest := h.rest_eq
  rw [abs_le, abs_le]
  rcases le_total 0 d.toInt with hd | hd
  · rw [Int.tdiv_eq_ediv_of_nonneg hd] at hwhole
    rw [Int.tmod_eq_emod_of_nonneg hd] at hrest
    have hbounds := ediv_emod_bounds hd hlt.le hunit.second_le
    omega
  · obtain ⟨n, hn⟩ : ∃ n, d.toInt = -n := ⟨-d.toInt, by omega⟩
    have hnonneg : 0 ≤ n := by omega
    rw [hn, Int.neg_tdiv, Int.tdiv_eq_ediv_of_nonneg hnonneg] at hwhole
    rw [hn, Int.neg_tmod, Int.tmod_eq_emod_of_nonneg hnonneg] at hrest
    have hbounds := ediv_emod_bounds hnonneg (by omega) hunit.second_le
    omega

/-- What the two parts count as floats. -/
theorem Parts.rounds (h : Parts d unit whole rest) (hunit : LongUnit unit) :
    ∃ y : Float, y.isFinite = true ∧ Rounds (rest / unit.toInt) y ∧
      Rounds (whole + value y) (d.inUnits unit) := by
  obtain ⟨⟨hwhole, hrest⟩, -⟩ := h.bounds hunit
  obtain ⟨hwf, hwv⟩ :=
    (h.toInt_whole ▸ rounds_ofInt64 (d.ns / unit.ns)).exact (onGrid_int (by omega))
  obtain ⟨hrf, hrv⟩ :=
    (h.toInt_rest ▸ rounds_ofInt64 (d.ns % unit.ns)).exact (onGrid_int (hrest.trans hunit.le_exact))
  obtain ⟨huf, huv⟩ := hunit.exact
  have hpos := hunit.pos
  have hquot := rounds_div hrf huf (by rw [huv]; exact hpos.ne')
  rw [hrv, huv] at hquot
  obtain ⟨hle, hge⟩ := abs_le.mp hrest
  have hle : -(unit.toInt : ℚ) ≤ rest := by exact_mod_cast hle
  have hge : (rest : ℚ) ≤ unit.toInt := by exact_mod_cast hge
  have hlow : (-1 : ℚ) ≤ rest / unit.toInt := by rwa [le_div_iff₀ hpos, neg_one_mul]
  have hhigh : (rest : ℚ) / unit.toInt ≤ 1 := by rwa [div_le_one hpos]
  obtain ⟨hyf, -⟩ := hquot.between onGrid_one.neg onGrid_one hlow hhigh
  have hsum := rounds_add hwf hyf
  rw [hwv] at hsum
  exact ⟨_, hyf, hquot, hsum⟩

/-! ## Bounds -/

theorem toInt_second_cast : (Duration.second.toInt : ℚ) = 1000000000 := by
  rw [toInt_second, Int.cast_ofNat]

/-- A power of two that no part of a duration falls below. -/
theorem onGrid_moment : OnGrid (2 ^ (-30 : ℤ)) := onGrid_two_zpow_of_nonpos (by decide) (by decide)

theorem isFinite_seconds (d : Duration) : d.seconds.isFinite = true ∧
    |value d.seconds| ≤ 2 ^ 34 := by
  obtain ⟨whole, rest, h⟩ := exists_parts d longUnit_second
  obtain ⟨⟨hwhole, hrest⟩, -⟩ := h.bounds longUnit_second
  obtain ⟨y, -, hy, hsum⟩ := h.rounds longUnit_second
  rw [toInt_second_cast] at hy
  have hmost : OnGrid (2 ^ 34) := onGrid_two_pow (by decide)
  have hwhole' : |(whole : ℚ)| ≤ 2 ^ 34 - 1 := by exact_mod_cast hwhole
  have hrest' : |(rest : ℚ)| ≤ 1000000000 := by exact_mod_cast hrest
  rw [abs_le] at hwhole' hrest'
  obtain ⟨-, hlow, hhigh⟩ := hy.between onGrid_one.neg onGrid_one (by linarith) (by linarith)
  obtain ⟨hfinite, hbounds⟩ := hsum.between hmost.neg hmost (by linarith) (by linarith)
  exact ⟨hfinite, abs_le.mpr hbounds⟩

/-- **A positive duration counts as positive.** -/
theorem seconds_of_pos (h : 0 < d.toInt) : 2 ^ (-30 : ℤ) ≤ value d.seconds := by
  obtain ⟨whole, rest, hparts⟩ := exists_parts d longUnit_second
  obtain ⟨-, hnonneg, -, hpos, -⟩ := hparts.bounds longUnit_second
  obtain ⟨y, -, hy, hsum⟩ := hparts.rounds longUnit_second
  rw [toInt_second_cast] at hy
  have hwhole : (0 : ℚ) ≤ whole := by exact_mod_cast (hnonneg h.le).1
  have hrest : (0 : ℚ) ≤ rest := by exact_mod_cast (hnonneg h.le).2
  have hy0 : 0 ≤ value y := hy.nonneg (by positivity)
  refine hsum.ge_of_onGrid onGrid_moment ?_
  rcases hpos h with hone | hone
  · have hone : (1 : ℚ) ≤ whole := by exact_mod_cast hone
    have hle : (2 : ℚ) ^ (-30 : ℤ) ≤ 1 := by norm_num
    linarith
  · have hone : (1 : ℚ) ≤ rest := by exact_mod_cast hone
    have hle : (2 : ℚ) ^ (-30 : ℤ) ≤ value y := by
      refine hy.ge_of_onGrid onGrid_moment ?_
      norm_num
      linarith
    linarith

/-- **A negative duration counts as negative.** -/
theorem seconds_of_neg (h : d.toInt < 0) : value d.seconds ≤ -2 ^ (-30 : ℤ) := by
  obtain ⟨whole, rest, hparts⟩ := exists_parts d longUnit_second
  obtain ⟨-, -, hnonpos, -, hneg⟩ := hparts.bounds longUnit_second
  obtain ⟨y, -, hy, hsum⟩ := hparts.rounds longUnit_second
  rw [toInt_second_cast] at hy
  have hwhole : (whole : ℚ) ≤ 0 := by exact_mod_cast (hnonpos h.le).1
  have hrest : (rest : ℚ) ≤ 0 := by exact_mod_cast (hnonpos h.le).2
  have hy0 : value y ≤ 0 := hy.nonpos (by linarith)
  refine hsum.le_of_onGrid onGrid_moment.neg ?_
  rcases hneg h with hone | hone
  · have hone : (whole : ℚ) ≤ -1 := by exact_mod_cast hone
    have hle : (2 : ℚ) ^ (-30 : ℤ) ≤ 1 := by norm_num
    linarith
  · have hone : (rest : ℚ) ≤ -1 := by exact_mod_cast hone
    have hle : value y ≤ -2 ^ (-30 : ℤ) := by
      refine hy.le_of_onGrid onGrid_moment.neg ?_
      norm_num
      linarith
    linarith

theorem seconds_of_zero (h : d.toInt = 0) : value d.seconds = 0 := by
  obtain ⟨whole, rest, hparts⟩ := exists_parts d longUnit_second
  obtain ⟨-, hnonneg, hnonpos, -⟩ := hparts.bounds longUnit_second
  obtain ⟨y, -, hy, hsum⟩ := hparts.rounds longUnit_second
  have hwhole : whole = 0 := le_antisymm (hnonpos h.le).1 (hnonneg h.ge).1
  have hrest : rest = 0 := le_antisymm (hnonpos h.le).2 (hnonneg h.ge).2
  rw [hrest, Int.cast_zero, zero_div] at hy
  rw [hwhole, Int.cast_zero, zero_add, (hy.exact onGrid_zero).2] at hsum
  exact (hsum.exact onGrid_zero).2

/-! ## Whole parts -/

/-- The greatest number with twelve bits after the point that lies below the next whole number. -/
theorem onGrid_below_next (h0 : 0 ≤ whole) (h : whole < 2 ^ 40) : OnGrid (whole + 4095 / 4096) := by
  have hgrid := Binary.onGrid_mul_zpow (m := (4096 * whole + 4095).toNat) (e := -12)
    (by omega) (by decide) (by decide)
  have hcast : (((4096 * whole + 4095).toNat : ℕ) : ℚ) = 4096 * whole + 4095 := by
    exact_mod_cast Int.toNat_of_nonneg (show 0 ≤ 4096 * whole + 4095 by omega)
  rw [hcast] at hgrid
  have heq : (4096 * (whole : ℚ) + 4095) * 2 ^ (-12 : ℤ) = whole + 4095 / 4096 := by
    norm_num
    ring
  rwa [heq] at hgrid

/-- **The whole part of a duration in a unit is its number of whole units**, if the rest leaves a
part in 4096 of the unit free: the sum then stays away from the next whole number. -/
theorem toInt_truncInt64_inUnits (hunit : LongUnit unit) (h0 : 0 ≤ d.toInt)
    (hfree : 4096 * (d.toInt % unit.toInt) ≤ 4095 * unit.toInt) :
    (Binary.truncInt64 (d.inUnits unit)).toInt = d.toInt / unit.toInt := by
  obtain ⟨whole, rest, hparts⟩ := exists_parts d hunit
  obtain ⟨⟨hwhole, -⟩, hnonneg, -⟩ := hparts.bounds hunit
  obtain ⟨hw0, hr0⟩ := hnonneg h0
  have hwlt : whole < 2 ^ 34 := Int.lt_of_le_sub_one (abs_le.mp hwhole).2
  obtain ⟨y, -, hy, hsum⟩ := hparts.rounds hunit
  have hpos := hunit.pos
  have hrest0 : (0 : ℚ) ≤ rest := by exact_mod_cast hr0
  have hrest : (rest : ℚ) / unit.toInt ≤ 4095 / 4096 := by
    rw [← Int.tmod_eq_emod_of_nonneg h0, ← hparts.rest_eq] at hfree
    have hfree : (4096 : ℚ) * rest ≤ 4095 * unit.toInt := by exact_mod_cast hfree
    rw [div_le_div_iff₀ hpos (by norm_num)]
    linarith
  have hbelow : OnGrid (4095 / 4096) := by simpa using onGrid_below_next le_rfl (by decide)
  obtain ⟨-, hy0, hy1⟩ := hy.between onGrid_zero hbelow (div_nonneg hrest0 hpos.le) hrest
  have hwgrid : OnGrid whole := onGrid_int (hwhole.trans (by decide))
  obtain ⟨hfinite, hlow, hhigh⟩ :=
    hsum.between hwgrid (onGrid_below_next hw0 (by omega)) (by linarith) (by linarith)
  have hw0' : (0 : ℚ) ≤ whole := by exact_mod_cast hw0
  have hwlt' : (whole : ℚ) < 2 ^ 34 := by exact_mod_cast hwlt
  rw [toInt_truncInt64_eq_floor (isFinite_iff.mp hfinite).1 (by linarith) (by linarith),
    ← Int.tdiv_eq_ediv_of_nonneg h0, ← hparts.whole_eq, Int.floor_eq_iff]
  exact ⟨hlow, by linarith⟩

end Stopwatch.Rounding
