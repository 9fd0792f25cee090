import Stopwatch.Progress
import Stopwatch.Proofs.Float.Seconds
import Stopwatch.Proofs.Text.Amounts

/-!
# The time left is read back

The time left is rounded to the nearest second, and its hours, minutes and seconds are taken from
three floats. A rounded duration leaves a part of its last hour, minute and second free, and so none
of the three floats reaches the next whole number (`toInt_truncInt64_units`).

What is shown are the hours and minutes, or the minutes and seconds, that are not zero
(`leftText_eq`). Read as a duration, they give the rounded duration again, without its seconds from
an hour on (`leftText_reads_back`).
-/

namespace Stopwatch.Progress

open Duration (Amount NamedUnit amountsText amountsWorth amountsWorth_filter read?_amountsText)
open Rounding

variable {d : Duration} {ns ns' : ℤ} {h m s t : ℕ}

/-! ## The nearest second -/

/-- The nearest second, a half going up, or the greatest duration where that second is beyond it. -/
def nearestSecond (ns : ℤ) : ℤ :=
  min ((ns + 500000000) / 1000000000 * 1000000000) Int64.maxValue.toInt

theorem toInt_maxValue : Int64.maxValue.toInt = 9223372036854775807 := rfl

theorem toInt_greatest : Duration.toInt ⟨Int64.maxValue⟩ = 9223372036854775807 := toInt_maxValue

theorem nearestSecond_mono (h : ns ≤ ns') : nearestSecond ns ≤ nearestSecond ns' := by
  unfold nearestSecond
  omega

/-- From a second on there are whole seconds, or there is the greatest duration. -/
theorem nearestSecond_cases (h : 1000000000 ≤ ns) :
    1000000000 ≤ nearestSecond ns ∧
      (nearestSecond ns % 1000000000 = 0 ∨ nearestSecond ns = 9223372036854775807) := by
  have hmax := toInt_maxValue
  unfold nearestSecond
  omega

theorem nearestSecond_le (ns : ℤ) : nearestSecond ns ≤ 9223372036854775807 := min_le_right _ _

theorem toInt_ofInt {i : ℤ} (h0 : 0 ≤ i) (hlt : i ≤ 9223372036854775807) :
    (Duration.ofInt i).toInt = i :=
  Int64.toInt_ofInt_of_le (by omega) (by omega)

theorem toInt_round_second (h : 0 ≤ d.toInt) :
    (d.round Duration.second).toInt = nearestSecond d.toInt := by
  have hlt : d.toInt < 2 ^ 63 := Int64.toInt_lt d.ns
  have hmax := toInt_maxValue
  rw [Duration.round, toInt_second, if_neg (by decide), nearestSecond, hmax]
  simp only [Int.tmod_eq_emod_of_nonneg h, if_neg (not_lt.mpr h)]
  split_ifs with hhalf hhigh
  · rw [toInt_ofInt (by omega) (by omega)]
    omega
  · rw [toInt_ofInt (by omega) hhigh]
    omega
  · rw [toInt_greatest]
    omega

/-- **None of the three floats reaches the next whole number.** -/
theorem toInt_truncInt64_units (h0 : 0 ≤ d.toInt)
    (hround : d.toInt % 1000000000 = 0 ∨ d.toInt = 9223372036854775807) :
    (Binary.truncInt64 d.hours).toInt = d.toInt / 3600000000000 ∧
      (Binary.truncInt64 d.minutes).toInt = d.toInt / 60000000000 ∧
      (Binary.truncInt64 d.seconds).toInt = d.toInt / 1000000000 := by
  rw [← toInt_hour, ← toInt_minute, ← toInt_second]
  refine ⟨?_, ?_, ?_⟩
  · refine toInt_truncInt64_inUnits longUnit_hour h0 ?_
    rw [toInt_hour]
    omega
  · refine toInt_truncInt64_inUnits longUnit_minute h0 ?_
    rw [toInt_minute]
    omega
  · refine toInt_truncInt64_inUnits longUnit_second h0 ?_
    rw [toInt_second]
    omega

/-! ## What is shown -/

/-- Hours and minutes, or minutes and seconds if there is no hour, without the zeros. -/
def clockAmounts (h m s : ℕ) : List Amount :=
  (if 0 < h then [⟨h, .hour⟩, ⟨m, .minute⟩] else [⟨m, .minute⟩, ⟨s, .second⟩]).filter (0 < ·.count)

theorem amountsWorth_clockAmounts (h m s : ℕ) :
    amountsWorth (clockAmounts h m s) =
      if 0 < h then h * 3600000000000 + m * 60000000000 else m * 60000000000 + s * 1000000000 := by
  rw [clockAmounts, amountsWorth_filter]
  split_ifs <;> simp [Amount.worth]

/-- Hours, minutes and seconds in this order, none of them zero, and no minutes or seconds that are
carried over. -/
structure Carried (as : List Amount) : Prop where
  inOrder : (as.map Amount.unit).Sublist [.hour, .minute, .second]
  pos : ∀ a ∈ as, 0 < a.count
  lt_sixty : ∀ a ∈ as, a.unit ≠ .hour → a.count < 60

theorem carried_clockAmounts (hm : m < 60) (hs : s < 60) : Carried (clockAmounts h m s) where
  inOrder := by
    refine (List.filter_sublist.map Amount.unit).trans ?_
    split_ifs
    · exact List.sublist_append_left [NamedUnit.hour, .minute] [.second]
    · exact List.sublist_cons_self NamedUnit.hour [.minute, .second]
  pos a ha := by simpa using (List.mem_filter.mp ha).2
  lt_sixty a ha hunit := by
    have hmem := (List.mem_filter.mp ha).1
    split_ifs at hmem <;> simp only [List.mem_cons, List.not_mem_nil, or_false] at hmem
    · rcases hmem with rfl | rfl
      · exact absurd rfl hunit
      · exact hm
    · rcases hmem with rfl | rfl
      · exact hm
      · exact hs

theorem ofInt_natCast (n : ℕ) : Text.ofInt (n : ℤ) = Text.ofNat n := rfl

theorem clockText_eq {hours minutes seconds : Int64} (hh : hours.toInt = h) (hm : minutes.toInt = m)
    (hs : seconds.toInt = s) (hpos : 0 < h ∨ 0 < m ∨ 0 < s) :
    clockText hours minutes seconds = amountsText (clockAmounts h m s) := by
  simp only [clockText, Int64.lt_iff_toInt_lt, Int64.toInt_zero, hh, hm, hs,
    Int.natCast_pos, ofInt_natCast, clockAmounts]
  by_cases hhour : 0 < h
  · by_cases hminute : 0 < m <;> simp [hhour, hminute, Amount.text,
      Text.append_empty, Text.append_assoc]
  · by_cases hminute : 0 < m
    · by_cases hsecond : 0 < s <;>
        simp [hhour, hminute, hsecond, Amount.text, Text.append_empty, Text.append_assoc]
    · have hsecond : 0 < s := by omega
      simp [hhour, hminute, hsecond, Amount.text, Text.append_empty]

theorem toInt_mod_sixty {i : Int64} (h : 0 ≤ i.toInt) : (i % 60).toInt = i.toInt % 60 := by
  rw [Int64.toInt_mod, Int.tmod_eq_emod_of_nonneg h]
  rfl

theorem leftText_eq (h : 1000000000 ≤ d.toInt) (ht : nearestSecond d.toInt = t) :
    leftText d = amountsText (clockAmounts (t / 3600000000000) (t / 60000000000 % 60)
      (t / 1000000000 % 60)) := by
  obtain ⟨hlow, hcases⟩ := nearestSecond_cases h
  rw [← toInt_round_second (by omega)] at ht hlow hcases
  obtain ⟨hhours, hminutes, hseconds⟩ := toInt_truncInt64_units (by omega) hcases
  have hm := toInt_mod_sixty (i := Binary.truncInt64 (d.round Duration.second).minutes) (by omega)
  have hs := toInt_mod_sixty (i := Binary.truncInt64 (d.round Duration.second).seconds) (by omega)
  rw [leftText, if_neg (by omega), if_neg (by omega)]
  exact clockText_eq (by omega) (by omega) (by omega) (by omega)

/-! ## What is read -/

/-- What the time left is shown to: the second below an hour, and the minute from there on. -/
def shownLeft (ns : ℤ) : ℤ := if ns < 3600000000000 then ns else ns / 60000000000 * 60000000000

theorem shownLeft_mono (h : ns ≤ ns') : shownLeft ns ≤ shownLeft ns' := by
  unfold shownLeft
  split_ifs <;> omega

theorem shownLeft_bounds (h : 1000000000 ≤ ns) : 0 < shownLeft ns ∧ shownLeft ns ≤ ns := by
  unfold shownLeft
  split_ifs <;> omega

/-- The hours, minutes and seconds of a rounded duration are worth what it is shown to. -/
theorem amountsWorth_of_rounded (hround : t % 1000000000 = 0 ∨ t = 9223372036854775807) :
    (amountsWorth (clockAmounts (t / 3600000000000) (t / 60000000000 % 60)
      (t / 1000000000 % 60)) : ℤ) =
      shownLeft t := by
  rw [amountsWorth_clockAmounts, shownLeft]
  split_ifs <;> omega

theorem exists_shown (h : 1000000000 ≤ d.toInt) :
    ∃ as, leftText d = amountsText as ∧ Carried as ∧
      (amountsWorth as : ℤ) = shownLeft (nearestSecond d.toInt) := by
  obtain ⟨hlow, hcases⟩ := nearestSecond_cases h
  obtain ⟨t, ht⟩ := Int.eq_ofNat_of_zero_le (show 0 ≤ nearestSecond d.toInt by omega)
  rw [ht] at hcases
  refine ⟨_, leftText_eq h ht,
    carried_clockAmounts (Nat.mod_lt _ (by decide)) (Nat.mod_lt _ (by decide)), ?_⟩
  rw [ht]
  exact amountsWorth_of_rounded (by omega)

theorem read?_leftText (h : 1000000000 ≤ d.toInt) :
    ∃ r, Duration.read? (leftText d) = some r ∧ r.toInt = shownLeft (nearestSecond d.toInt) := by
  obtain ⟨as, htext, -, hworth⟩ := exists_shown h
  obtain ⟨hpos, hle⟩ := shownLeft_bounds (nearestSecond_cases h).1
  have hmost := hle.trans (nearestSecond_le d.toInt)
  rw [← hworth] at hpos hmost ⊢
  have hne : as ≠ [] := by
    rintro rfl
    exact absurd hpos (by decide)
  have hfits : amountsWorth as < Whole.half64 := by
    unfold Whole.half64
    omega
  exact ⟨_, htext ▸ read?_amountsText hne hfits, toInt_ofInt hpos.le hmost⟩

/-- **The time left is read back.** From a second on, what is shown is a text of hours, minutes and
seconds of which none is zero and none would be carried over. Read as a duration, it is the nearest
second below an hour, and the minute of the nearest second from there on; so a longer time left is
never shown as a shorter one. -/
theorem leftText_reads_back :
    (∀ d : Duration, 1000000000 ≤ d.toInt →
      (∃ as, leftText d = amountsText as ∧ Carried as) ∧
      ∃ r, Duration.read? (leftText d) = some r ∧ r.toInt = shownLeft (nearestSecond d.toInt)) ∧
    ∀ d d' r r' : Duration, 1000000000 ≤ d.toInt → d.toInt ≤ d'.toInt →
      Duration.read? (leftText d) = some r → Duration.read? (leftText d') = some r' →
        r.toInt ≤ r'.toInt := by
  constructor
  · intro d h
    obtain ⟨as, htext, hcarried, -⟩ := exists_shown h
    exact ⟨⟨as, htext, hcarried⟩, read?_leftText h⟩
  · intro d d' r r' h hle hr hr'
    obtain ⟨x, hx, hxv⟩ := read?_leftText h
    obtain ⟨y, hy, hyv⟩ := read?_leftText (h.trans hle)
    obtain rfl := Option.some.inj (hr.symm.trans hx)
    obtain rfl := Option.some.inj (hr'.symm.trans hy)
    rw [hxv, hyv]
    exact shownLeft_mono (nearestSecond_mono hle)

/-- Half a second before an hour the seconds are carried into minutes and these into an hour, and
the greatest duration loses its seconds. -/
theorem leftText_reads_back_at_ends :
    ∃ r r', Duration.read? (leftText (Duration.ofInt 3599500000000)) = some r ∧
        r.toInt = 3600000000000 ∧
      Duration.read? (leftText ⟨Int64.maxValue⟩) = some r' ∧ r'.toInt = 9223372020000000000 ∧
      r.toInt ≤ r'.toInt := by
  obtain ⟨hread, hmono⟩ := leftText_reads_back
  have hcarry : (Duration.ofInt 3599500000000).toInt = 3599500000000 := by decide
  have hlast := toInt_greatest
  obtain ⟨-, r, hr, hv⟩ := hread (Duration.ofInt 3599500000000) (by omega)
  obtain ⟨-, r', hr', hv'⟩ := hread ⟨Int64.maxValue⟩ (by omega)
  refine ⟨r, r', hr, ?_, hr', ?_, hmono _ _ r r' (by omega) (by omega) hr hr'⟩
  · rw [hv, hcarry]
    decide
  · rw [hv', hlast]
    decide

example : leftText (Duration.ofInt 3599500000000) = "1h" := by decide +kernel

end Stopwatch.Progress
