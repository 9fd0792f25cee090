import Stopwatch.Proofs.Float.NotANumber
import Stopwatch.Proofs.Float.Seconds
import Stopwatch.Proofs.Progress.Slots

/-!
# Bounds of the progress

A slot holds what its benchmark was last given, brought into the range from zero to one
(`slots_follow`). This is in the range if and only if it was a number (`inUnit_clampUnit_iff`). As
long as all slots are in the range, so is the average (`average_of_inUnit`), and a single slot that
is not makes the average no number (`isNaN_average`).

The pace is kept by what is no number, since it is in no order with the average that was reached. So
the pace is always finite and not negative (`Paced.record`), and the time left is between nothing
and a day unless the average is no number (`inTime_timeLeft_iff`). The bounds are put together in
`progress_bounds_iff`.
-/

namespace Stopwatch.Progress

open Rounding

/-- The float is from zero to one. -/
def InUnit (x : Float) : Prop := 0.0 ≤ x ∧ x ≤ 1.0

/-- The duration is from nothing to the longest time that is estimated. -/
def InTime (d : Duration) : Prop := 0 ≤ d.toInt ∧ d.toInt ≤ longest.toInt

instance (x : Float) : Decidable (InUnit x) := inferInstanceAs (Decidable (_ ∧ _))

instance (d : Duration) : Decidable (InTime d) := inferInstanceAs (Decidable (_ ∧ _))

variable {x average pace : Float} {s : State} {t : Tracker} {n : ℤ} {begun : Moment}
    {us : List (Timed Update)}

/-! ## Values -/

theorem not_inUnit_of_isNaN (h : x.isNaN = true) : ¬ InUnit x :=
  fun hunit => not_le_of_isNaN (.inr h) hunit.1

theorem inUnit_iff : InUnit x ↔ x.isNaN = false ∧ 0 ≤ value x ∧ value x ≤ 1 := by
  cases hnan : x.isNaN with
  | true => exact iff_of_false (not_inUnit_of_isNaN hnan) (by simp)
  | false =>
    rw [InUnit, le_iff isNaN_zero hnan, le_iff hnan rfl, value_zero, value_one]
    simp

theorem InUnit.isFinite (h : InUnit x) : x.isFinite = true := by
  obtain ⟨hnan, h0, h1⟩ := inUnit_iff.mp h
  refine isFinite_iff.mpr ⟨hnan, ?_⟩
  rw [abs_of_nonneg h0]
  exact h1.trans_lt (abs_lt.mp onGrid_one.1).2

theorem inUnit_of_rounds {q : ℚ} (h : Rounds q x) (h0 : 0 ≤ q) (h1 : q ≤ 1) : InUnit x := by
  obtain ⟨hfinite, hbounds⟩ := h.between onGrid_zero onGrid_one h0 h1
  exact inUnit_iff.mpr ⟨(isFinite_iff.mp hfinite).1, hbounds⟩

theorem inUnit_zero : InUnit 0.0 := inUnit_iff.mpr ⟨isNaN_zero, by rw [value_zero]; norm_num⟩

theorem isNaN_clampUnit (h : x.isNaN = true) : (clampUnit x).isNaN = true := by
  rwa [clampUnit, if_neg (not_lt_of_isNaN (.inl h)), if_neg (not_lt_of_isNaN (.inr h))]

/-- **A value is brought into the range if and only if it is a number.** -/
theorem inUnit_clampUnit_iff : InUnit (clampUnit x) ↔ x.isNaN = false := by
  constructor
  · intro h
    exact Bool.eq_false_iff.mpr fun hnan => not_inUnit_of_isNaN (isNaN_clampUnit hnan) h
  · intro h
    unfold clampUnit
    have hone : (1.0 : Float).isNaN = false := rfl
    simp only [lt_iff h isNaN_zero, lt_iff hone h, value_zero, value_one]
    split_ifs with hlow hhigh
    · exact inUnit_zero
    · exact inUnit_iff.mpr ⟨hone, by rw [value_one]; norm_num⟩
    · exact inUnit_iff.mpr ⟨h, not_lt.mp hlow, not_lt.mp hhigh⟩

/-! ## Slots -/

theorem inUnit_slotOf_iff {given : Option Float} :
    InUnit (slotOf given) ↔ ∀ v ∈ given, v.isNaN = false := by
  cases given with
  | none => simp [slotOf, inUnit_zero]
  | some v => simp [slotOf, inUnit_clampUnit_iff]

/-- What is not in the range is no number. -/
theorem isNaN_slotOf {given : Option Float} (h : ¬ InUnit (slotOf given)) :
    (slotOf given).isNaN = true := by
  cases given with
  | none => exact absurd inUnit_zero h
  | some v => exact isNaN_clampUnit (by simpa using mt inUnit_clampUnit_iff.mpr h)

theorem forall_mem_slots_iff {p : Float → Prop} :
    (∀ x ∈ ((Tracker.start n begun).follow us).state.slots, p x) ↔
      ∀ i : ℤ, 0 ≤ i → i < n → p (slotOf (lastValue us i)) := by
  rw [slots_follow, List.forall_mem_map]
  constructor
  · intro h i h0 hn
    obtain ⟨k, rfl⟩ := Int.eq_ofNat_of_zero_le h0
    exact h k (List.mem_range.mpr (by omega))
  · intro h k hk
    rw [List.mem_range] at hk
    exact h k (by omega) (by omega)

theorem inUnit_slots_iff :
    (∀ x ∈ ((Tracker.start n begun).follow us).state.slots, InUnit x) ↔
      ∀ i : ℤ, 0 ≤ i → i < n → ∀ v ∈ lastValue us i, v.isNaN = false := by
  rw [forall_mem_slots_iff]
  simp only [inUnit_slotOf_iff]

/-! ## Average -/

theorem sum_inUnit {xs : List Float} (hxs : ∀ x ∈ xs, InUnit x) {sum : Float} {k : ℕ}
    (hsum : sum.isFinite = true) (h0 : 0 ≤ value sum) (hk : value sum ≤ k)
    (hlength : k + xs.length ≤ 2 ^ 53) :
    let total := xs.foldl (· + ·) sum
    total.isFinite = true ∧ 0 ≤ value total ∧ value total ≤ (k + xs.length : ℕ) := by
  induction xs generalizing sum k with
  | nil => exact ⟨hsum, h0, by simpa using hk⟩
  | cons x xs ih =>
    rw [List.forall_mem_cons] at hxs
    obtain ⟨-, hx0, hx1⟩ := inUnit_iff.mp hxs.1
    rw [List.length_cons] at hlength ⊢
    have hgrid : OnGrid ((k + 1 : ℕ) : ℚ) := onGrid_nat (by omega)
    have hnext : value sum + value x ≤ (k + 1 : ℕ) := by push_cast; linarith
    obtain ⟨hfinite, hlow, hhigh⟩ :=
      (rounds_add hsum hxs.1.isFinite).between onGrid_zero hgrid (by linarith) hnext
    rw [List.foldl_cons, show k + (xs.length + 1) = k + 1 + xs.length by omega]
    exact ih hxs.2 hfinite hlow hhigh (by omega)

/-- **The average of values in the range is in the range.** -/
theorem average_of_inUnit (h : ∀ x ∈ s.slots, InUnit x) (hlength : s.slots.length ≤ 2 ^ 53) :
    InUnit s.average := by
  unfold State.average
  split_ifs with hempty
  · exact inUnit_zero
  · have hpos : 0 < s.slots.length := List.length_pos_iff.mpr (by simpa using hempty)
    have hcast : (0 : ℚ) < s.slots.length := by exact_mod_cast hpos
    have hzero : value 0.0 ≤ (0 : ℕ) := by rw [value_zero]; norm_num
    obtain ⟨hsf, hs0, hs1⟩ := sum_inUnit h rfl (by rw [value_zero]) hzero (by omega)
    rw [zero_add] at hs1
    obtain ⟨hcf, hcv⟩ := (rounds_toFloat s.slots.length).exact (onGrid_nat hlength)
    have hquot := rounds_div hsf hcf (by rw [hcv]; exact hcast.ne')
    rw [hcv] at hquot
    exact inUnit_of_rounds hquot (by positivity) ((div_le_one hcast).mpr hs1)

theorem isNaN_sum {xs : List Float} {sum : Float}
    (h : sum.isNaN = true ∨ ∃ x ∈ xs, x.isNaN = true) :
    (xs.foldl (· + ·) sum).isNaN = true := by
  induction xs generalizing sum with
  | nil => simpa using h
  | cons x xs ih =>
    rw [List.foldl_cons]
    apply ih
    rw [List.exists_mem_cons_iff] at h
    rcases h with h | h | h
    · exact .inl (isNaN_add_left h x)
    · exact .inl (isNaN_add_right sum h)
    · exact .inr h

/-- What is no number in one slot makes the average no number. -/
theorem isNaN_average (hmem : x ∈ s.slots) (hnan : x.isNaN = true) : s.average.isNaN = true := by
  rw [State.average, if_neg (by simpa using List.ne_nil_of_mem hmem)]
  exact isNaN_div_left (isNaN_sum (.inr ⟨x, hmem, hnan⟩)) _

/-! ## Pace -/

/-- The pace is finite and not negative, and it was taken at an average in the range. -/
structure Paced (t : Tracker) : Prop where
  pace_finite : t.pace.isFinite = true
  pace_nonneg : 0 ≤ value t.pace
  pace_le : value t.pace ≤ 2 ^ 30
  reached : InUnit t.reached

theorem paced_start (n : ℤ) (begun : Moment) : Paced (Tracker.start n begun) where
  pace_finite := (rfl : (0.0 : Float).isFinite = true)
  pace_nonneg := by
    show 0 ≤ value 0.0
    rw [value_zero]
  pace_le := by
    show value 0.0 ≤ 2 ^ 30
    rw [value_zero]
    norm_num
  reached := inUnit_zero

theorem onGrid_most_pace : OnGrid (2 ^ 30) := onGrid_two_pow (by decide)

/-- The growth in a positive time is a pace. -/
theorem rate_bounds {reached elapsed : Float} (hreached : InUnit reached)
    (haverage : InUnit average) (hgrown : value reached ≤ value average)
    (hfinite : elapsed.isFinite = true)
    (helapsed : 2 ^ (-30 : ℤ) ≤ value elapsed) :
    let rate := (average - reached) / elapsed
    rate.isFinite = true ∧ 0 ≤ value rate ∧ value rate ≤ 2 ^ 30 := by
  obtain ⟨-, hr0, -⟩ := inUnit_iff.mp hreached
  obtain ⟨-, -, ha1⟩ := inUnit_iff.mp haverage
  obtain ⟨hdf, hd0, hd1⟩ :=
    (rounds_sub haverage.isFinite hreached.isFinite).between onGrid_zero onGrid_one
      (by linarith) (by linarith)
  have hpos : 0 < value elapsed := (two_zpow_pos (-30)).trans_le helapsed
  refine (rounds_div hdf hfinite hpos.ne').between onGrid_zero onGrid_most_pace (by positivity) ?_
  rw [div_le_iff₀ hpos]
  calc value (average - reached) ≤ 1 := hd1
    _ = 2 ^ 30 * 2 ^ (-30 : ℤ) := by norm_num
    _ ≤ 2 ^ 30 * value elapsed := by gcongr

/-- The newest pace counts three tenths of the next one, and the older ones seven. -/
theorem value_shares :
    value 0.3 = 5404319552844595 * 2 ^ (-54 : ℤ) ∧
      value 0.7 = 6305039478318694 * 2 ^ (-53 : ℤ) := by
  decide +kernel

/-- A share of a pace is at most that of the greatest pace, if this is a float. -/
theorem share_bounds (share : Float) (hshare : share.isFinite = true) (h0 : 0 ≤ value share)
    (hgrid : OnGrid (value share * 2 ^ 30)) (hpf : pace.isFinite = true) (hp0 : 0 ≤ value pace)
    (hp1 : value pace ≤ 2 ^ 30) :
    (share * pace).isFinite = true ∧ 0 ≤ value (share * pace) ∧
      value (share * pace) ≤ value share * 2 ^ 30 :=
  (rounds_mul hshare hpf).between onGrid_zero hgrid (mul_nonneg h0 hp0)
    (mul_le_mul_of_nonneg_left hp1 h0)

/-- The weighted average of two paces is a pace. -/
theorem smoothed_bounds {rate : Float} (hrf : rate.isFinite = true) (hr0 : 0 ≤ value rate)
    (hr1 : value rate ≤ 2 ^ 30) (hpf : pace.isFinite = true) (hp0 : 0 ≤ value pace)
    (hp1 : value pace ≤ 2 ^ 30) :
    let smoothed := 0.3 * rate + 0.7 * pace
    smoothed.isFinite = true ∧ 0 ≤ value smoothed ∧ value smoothed ≤ 2 ^ 30 := by
  obtain ⟨hnew, hold⟩ := value_shares
  -- The shares of the greatest pace are floats, and together they are less than it.
  have hnewgrid :=
    Binary.onGrid_mul_zpow (m := 5404319552844595) (e := -24) (by decide) (by decide) (by decide)
  have holdgrid :=
    Binary.onGrid_mul_zpow (m := 6305039478318694) (e := -23) (by decide) (by decide) (by decide)
  have htotal : value 0.3 * 2 ^ 30 + value 0.7 * 2 ^ 30 ≤ 2 ^ 30 := by
    rw [hnew, hold]
    norm_num
  obtain ⟨hxf, hx0, hx1⟩ := share_bounds 0.3 rfl (by rw [hnew]; norm_num)
    (by rw [hnew]; norm_num at hnewgrid ⊢; exact hnewgrid) hrf hr0 hr1
  obtain ⟨hyf, hy0, hy1⟩ := share_bounds 0.7 rfl (by rw [hold]; norm_num)
    (by rw [hold]; norm_num at holdgrid ⊢; exact holdgrid) hpf hp0 hp1
  exact (rounds_add hxf hyf).between onGrid_zero onGrid_most_pace (add_nonneg hx0 hy0) (by linarith)

/-- A positive number of seconds is at least that of a nanosecond. -/
theorem le_seconds_of_pos {d : Duration} (h : 0 < value d.seconds) :
    2 ^ (-30 : ℤ) ≤ value d.seconds := by
  rcases lt_trichotomy d.toInt 0 with hd | hd | hd
  · have hneg := seconds_of_neg hd
    have hmoment := two_zpow_pos (-30)
    linarith
  · rw [seconds_of_zero hd] at h
    exact absurd h (lt_irrefl 0)
  · exact seconds_of_pos hd

/-- Recording a value takes the pace, or it changes nothing else. -/
theorem record_cases (t : Tracker) (now : Moment) (index : ℤ) (v : Float) :
    let state := t.state.set index v
    let elapsed := (t.taken.since now).seconds
    (0.0 < elapsed ∧ t.reached < state.average ∧ ∃ pace,
      t.record now index v = { state, taken := now, reached := state.average, pace } ∧
        (pace = (state.average - t.reached) / elapsed ∨
          pace = 0.3 * ((state.average - t.reached) / elapsed) + 0.7 * t.pace)) ∨
      ¬ (0.0 < elapsed ∧ t.reached < state.average) ∧ t.record now index v = { t with state } := by
  intro state elapsed
  by_cases hgrown : 0.0 < elapsed ∧ t.reached < state.average
  · refine .inl ⟨hgrown.1, hgrown.2, _, if_pos (by simpa using hgrown), ?_⟩
    split_ifs
    · exact .inl rfl
    · exact .inr rfl
  · exact .inr ⟨hgrown, if_neg (by simpa using hgrown)⟩

/-- **A pace stays a pace** as long as the average is in the range, and it is kept by what is no
number. -/
theorem Paced.record (h : Paced t) (now : Moment) (index : ℤ) (v : Float)
    (haverage : InUnit (t.state.set index v).average ∨ (t.state.set index v).average.isNaN = true) :
    Paced (t.record now index v) := by
  rcases record_cases t now index v with ⟨helapsed, hgrown, pace, hrecord, hpace⟩ | ⟨-, hrecord⟩
  · have hunit : InUnit (t.state.set index v).average :=
      haverage.resolve_right fun hnan => not_lt_of_isNaN (.inr hnan) hgrown
    obtain ⟨hsf, -⟩ := isFinite_seconds (t.taken.since now)
    rw [lt_iff isNaN_zero (isFinite_iff.mp hsf).1, value_zero] at helapsed
    rw [lt_iff (inUnit_iff.mp h.reached).1 (inUnit_iff.mp hunit).1] at hgrown
    obtain ⟨hrf, hr0, hr1⟩ := rate_bounds h.reached hunit hgrown.le hsf (le_seconds_of_pos helapsed)
    obtain ⟨hpf, hp0, hp1⟩ : pace.isFinite = true ∧ 0 ≤ value pace ∧ value pace ≤ 2 ^ 30 := by
      rcases hpace with rfl | rfl
      · exact ⟨hrf, hr0, hr1⟩
      · exact smoothed_bounds hrf hr0 hr1 h.pace_finite h.pace_nonneg h.pace_le
    rw [hrecord]
    exact ⟨hpf, hp0, hp1, hunit⟩
  · rw [hrecord]
    exact ⟨h.pace_finite, h.pace_nonneg, h.pace_le, h.reached⟩

/-! ## Runs -/

theorem average_follow (hn : State.isPossible n = true) (begun : Moment)
    (us : List (Timed Update)) :
    (∀ x ∈ ((Tracker.start n begun).follow us).state.slots, InUnit x) ∧
        InUnit ((Tracker.start n begun).follow us).state.average ∨
      ¬ (∀ x ∈ ((Tracker.start n begun).follow us).state.slots, InUnit x) ∧
        ((Tracker.start n begun).follow us).state.average.isNaN = true := by
  by_cases hunit : ∀ x ∈ ((Tracker.start n begun).follow us).state.slots, InUnit x
  · refine .inl ⟨hunit, average_of_inUnit hunit ?_⟩
    have hmost : Room.most = 2 ^ 48 := rfl
    simp only [State.isPossible, Room.holds, hmost, Bool.and_eq_true, decide_eq_true_eq] at hn
    rw [slots_follow, List.length_map, List.length_range]
    omega
  · refine .inr ⟨hunit, ?_⟩
    rw [forall_mem_slots_iff] at hunit
    push Not at hunit
    obtain ⟨i, h0, hi, hout⟩ := hunit
    have hmem : ∀ p : Float → Prop, (∀ x ∈ ((Tracker.start n begun).follow us).state.slots, p x) →
        p (slotOf (lastValue us i)) := fun p hp => forall_mem_slots_iff.mp hp i h0 hi
    exact isNaN_average (hmem (· ∈ _) fun x hx => hx) (isNaN_slotOf hout)

theorem paced_follow (hn : State.isPossible n = true) (begun : Moment) (us : List (Timed Update)) :
    Paced ((Tracker.start n begun).follow us) := by
  induction us using List.reverseRecOn with
  | nil => exact paced_start n begun
  | append_singleton us u ih =>
    have haverage := average_follow hn begun (us ++ [u])
    rw [follow_concat] at haverage ⊢
    rw [update_state] at haverage
    exact ih.record u.time u.value.index u.value.value (haverage.imp And.right And.right)

/-! ## Time left -/

theorem value_day : value longest.seconds = 86400 := by decide +kernel

/-- Below a day the seconds are brought to nanoseconds that fit. -/
theorem inTime_ofSeconds {seconds : Float} (hnum : seconds.isNaN = false) (h0 : 0 ≤ value seconds)
    (hlt : value seconds < 86400) : InTime ⟨Binary.truncInt64 (seconds * 1000000000.0)⟩ := by
  have hlongest : longest.toInt = 86400000000000 := rfl
  have hday : OnGrid ((86400000000000 : ℕ) : ℚ) := onGrid_nat (by decide)
  have hfinite : seconds.isFinite = true := by
    refine isFinite_iff.mpr ⟨hnum, ?_⟩
    rw [abs_of_nonneg h0]
    have hgrid : OnGrid ((86400 : ℕ) : ℚ) := onGrid_nat (by decide)
    exact hlt.trans (abs_lt.mp hgrid.1).2
  have hproduct := rounds_mul (y := 1000000000.0) hfinite rfl
  have hbillion : value 1000000000.0 = 1000000000 := value_billion
  rw [hbillion] at hproduct
  obtain ⟨hpf, hp0, hp1⟩ :=
    hproduct.between onGrid_zero hday (by positivity) (by push_cast; linarith)
  have hfits : value (seconds * 1000000000.0) < 2 ^ 63 := hp1.trans_lt (by norm_num)
  rw [InTime, Duration.toInt, toInt_truncInt64_eq_floor (isFinite_iff.mp hpf).1 hp0 hfits, hlongest]
  refine ⟨Int.floor_nonneg.mpr hp0, ?_⟩
  exact_mod_cast (Int.floor_le _).trans hp1

theorem inTime_zero : InTime 0 := ⟨by decide, by decide⟩

theorem inTime_longest : InTime longest := ⟨by decide, by decide⟩

/-- **The time left is in bounds unless the average is no number**, once there is a pace at all. -/
theorem inTime_timeLeft_iff (hpf : pace.isFinite = true)
    (haverage : InUnit average ∨ average.isNaN = true) :
    InTime (timeLeft pace average) ↔ InUnit average ∨ pace ≤ 0.0 := by
  by_cases hpace : pace ≤ 0.0
  · rw [timeLeft, if_pos (by simp [hpace])]
    exact iff_of_true inTime_zero (.inr hpace)
  rcases haverage with hunit | hnan
  · refine iff_of_true ?_ (.inl hunit)
    unfold timeLeft
    dsimp only
    split_ifs with hdone hlong
    · exact inTime_zero
    · exact inTime_longest
    · -- There is a positive pace and something left, for less than a day.
      obtain ⟨-, ha0, ha1⟩ := inUnit_iff.mp hunit
      have hpos : 0 < value pace := by
        rw [le_iff (isFinite_iff.mp hpf).1 isNaN_zero, value_zero] at hpace
        exact not_le.mp hpace
      have hrest := rounds_sub (x := 1.0) rfl hunit.isFinite
      rw [value_one] at hrest
      obtain ⟨hrf, hr0, -⟩ := hrest.between onGrid_zero onGrid_one (by linarith) (by linarith)
      have hseconds := rounds_div hrf hpf hpos.ne'
      have h0 := hseconds.nonneg (by positivity)
      have hday := (isFinite_seconds longest).1
      rw [le_iff (isFinite_iff.mp hday).1 hseconds.isNumber, value_day] at hlong
      exact inTime_ofSeconds hseconds.isNumber h0 (not_le.mp hlong)
  · have hseconds : ((1.0 - average) / pace).isNaN = true :=
      isNaN_div_left (isNaN_sub_right 1.0 hnan) pace
    have hdone : ¬ (1.0 : Float) ≤ average := not_le_of_isNaN (.inr hnan)
    refine iff_of_false ?_ (not_or.mpr ⟨not_inUnit_of_isNaN hnan, hpace⟩)
    rw [timeLeft, if_neg (by simp [hpace, hdone])]
    dsimp only
    rw [if_neg (not_le_of_isNaN (.inr hseconds)), truncInt64_of_isNaN (isNaN_mul_left hseconds _)]
    exact fun h => absurd h.1 (by decide)

/-! ## Bounds -/

/-- The slots stay in the range if and only if what is given for them are numbers. -/
theorem inUnit_slots_forever_iff (n : ℤ) (begun : Moment) (us : List (Timed Update)) :
    (∀ earlier, earlier <+: us →
        ∀ x ∈ ((Tracker.start n begun).follow earlier).state.slots, InUnit x) ↔
      ∀ u ∈ us, 0 ≤ u.value.index → u.value.index < n → u.value.value.isNaN = false := by
  constructor
  · -- Right after an update its benchmark was last given the value of the update.
    intro hslots u hu h0 hi
    obtain ⟨earlier, later, rfl⟩ := List.append_of_mem hu
    have hbefore : earlier ++ [u] <+: earlier ++ u :: later := ⟨later, by simp⟩
    refine inUnit_slots_iff.mp (hslots _ hbefore) u.value.index h0 hi u.value.value ?_
    rw [lastValue_concat, if_pos rfl]
    rfl
  · intro hus earlier hbefore
    rw [inUnit_slots_iff]
    rintro i h0 hi v hv
    obtain ⟨u, hu, rfl, rfl⟩ := exists_of_lastValue hv
    exact hus u (hbefore.subset hu) h0 hi

/-- A value for a slot that there is not is dropped. -/
theorem State.set_of_out_of_range {index : ℤ}
    (hindex : ¬ (0 ≤ index ∧ index < s.slots.length)) (v : Float) :
    s.set index v = s := by
  unfold State.set
  split_ifs with hneg
  · rfl
  · rw [List.set_eq_of_length_le (by omega)]

/-- At an index that there is not, nothing is recorded but the pace, if the average has grown
already. -/
theorem update_of_out_of_range {u : Update}
    (hindex : ¬ (0 ≤ u.index ∧ u.index < t.state.slots.length)) (now : Moment) :
    (t.update now u).1.state = t.state ∧
      ((t.update now u).1 = t ∨ 0.0 < (t.taken.since now).seconds ∧
        t.reached < t.state.average) := by
  have hstate := State.set_of_out_of_range hindex u.value
  refine ⟨(update_state t now u).trans hstate, ?_⟩
  have hupdate : (t.update now u).1 = t.record now u.index u.value := rfl
  rcases record_cases t now u.index u.value with ⟨helapsed, hgrown, -⟩ | ⟨-, hrecord⟩
  · rw [hstate] at hgrown
    exact .inr ⟨helapsed, hgrown⟩
  · rw [hupdate, hrecord, hstate]
    exact .inl rfl

theorem inTime_left_iff (hn : State.isPossible n = true) (begun : Moment)
    (us : List (Timed Update)) :
    let t := (Tracker.start n begun).follow us
    InTime t.left ↔ (∀ x ∈ t.state.slots, InUnit x) ∨ t.pace ≤ 0.0 := by
  intro t
  have hpaced := paced_follow hn begun us
  rcases average_follow hn begun us with ⟨hslots, haverage⟩ | ⟨hslots, haverage⟩
  · rw [Tracker.left, inTime_timeLeft_iff hpaced.pace_finite (.inl haverage)]
    exact iff_of_true (.inl haverage) (.inl hslots)
  · rw [Tracker.left, inTime_timeLeft_iff hpaced.pace_finite (.inr haverage)]
    exact or_congr_left (iff_of_false (not_inUnit_of_isNaN haverage) hslots)

/-- **The progress is in bounds as long as no benchmark is given what is no number.** All slots are
in the range after each of some updates if and only if the updates with an index in the range are
numbers, and an update with another index leaves the slots and the average as they are; the pace may
be taken then, if the average has grown since the last time. The time left is from nothing to a day
if and only if all slots are in the range or nothing is known about the pace. What is told of an
update is the average and the time left after it. -/
theorem progress_bounds_iff (n : ℤ) (hn : State.isPossible n = true) (begun : Moment)
    (us : List (Timed Update)) :
    let t := (Tracker.start n begun).follow us
    ((∀ earlier, earlier <+: us →
          ∀ x ∈ ((Tracker.start n begun).follow earlier).state.slots, InUnit x) ↔
        ∀ u ∈ us, 0 ≤ u.value.index → u.value.index < n → u.value.value.isNaN = false) ∧
      (∀ now u, ¬ (0 ≤ u.index ∧ u.index < n) → (t.update now u).1.state = t.state ∧
        ((t.update now u).1 = t ∨ 0.0 < (t.taken.since now).seconds ∧
          t.reached < t.state.average)) ∧
      (InTime t.left ↔ (∀ x ∈ t.state.slots, InUnit x) ∨ t.pace ≤ 0.0) ∧
      ∀ now u, (t.update now u).2.average = (t.update now u).1.state.average ∧
        (t.update now u).2.left = (t.update now u).1.left := by
  intro t
  have hlength : t.state.slots.length = n.toNat := by
    rw [slots_follow, List.length_map, List.length_range]
  refine ⟨inUnit_slots_forever_iff n begun us, fun now u hindex => ?_, inTime_left_iff hn begun us,
    fun now u => ⟨rfl, rfl⟩⟩
  exact update_of_out_of_range (by omega) now

/-- Infinities are brought into the range, and what is no number does no harm at an index that there
is not. -/
theorem progress_bounds_of_infinities :
    let us : List (Timed Update) := [⟨⟨1000000000⟩, { index := 0, value := 1.0 / 0.0 }⟩,
      ⟨⟨2000000000⟩, { index := 2, value := 0.0 / 0.0 }⟩,
      ⟨⟨3000000000⟩, { index := 1, value := -1.0 / 0.0 }⟩]
    let t := (Tracker.start 2 .origin).follow us
    State.isPossible 2 = true ∧ ¬ t.pace ≤ 0.0 ∧
      (∀ x ∈ t.state.slots, InUnit x) ∧ InTime t.left := by
  intro us t
  have ht : (Tracker.start 2 .origin).follow us = t := rfl
  have hpossible : State.isPossible 2 = true := by decide +kernel
  obtain ⟨hstay, -, htime, -⟩ := progress_bounds_iff 2 hpossible .origin us
  have hslots := hstay.mpr (by decide +kernel) us List.prefix_rfl
  have hpace : ¬ t.pace ≤ 0.0 := by decide +kernel
  rw [ht] at hslots htime
  exact ⟨hpossible, hpace, hslots, htime.mpr (.inl hslots)⟩

/-- Half of a benchmark is done after a second, and then its progress is no number: its slot leaves
the range, and the time left is as far below nothing as it can be. And where half of it is done at
the very beginning, when no pace can be taken, the next update takes it though its index is of no
benchmark: the time left becomes known. -/
theorem out_of_bounds_of_no_number :
    let us : List (Timed Update) :=
      [⟨⟨1000000000⟩, { index := 0, value := 0.5 }⟩,
        ⟨⟨2000000000⟩, { index := 0, value := 0.0 / 0.0 }⟩]
    let t := (Tracker.start 1 .origin).follow us
    let early := (Tracker.start 1 .origin).follow [⟨.origin, { index := 0, value := 0.5 }⟩]
    let later := (early.update ⟨1000000000⟩ { index := 1, value := 0.75 }).1
    (¬ (∀ x ∈ t.state.slots, InUnit x) ∧ ¬ InTime t.left ∧ t.left = ⟨Int64.minValue⟩) ∧
      later.state.slots = early.state.slots ∧ early.left = 0 ∧ later.left = Duration.second := by
  decide +kernel

end Stopwatch.Progress
