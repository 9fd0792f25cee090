import Mathlib.Data.Int.ConditionallyCompleteOrder
import Mathlib.Data.Int.Interval
import Stopwatch.Proofs.Prime.Counting

/-!
# Counting the primes of a range

The loop over a range goes on as long as its counter does not exceed the upper end. If the upper end
is not the greatest word, the counter gets past it and the loop ends with all primes of the range
(`countTo?_eq_countFrom`). No word exceeds the greatest one, so a loop up to that one wraps and goes
on for ever, wherever it starts.

`Counts` is the loop in words, wrapping included, with no more said about its end than that the
counter exceeds the upper end. So it is from this relation, not from the function, that a loop is
known to have no end (`not_counts_maxValue`), and the function has its answers from the runs that
have one (`countTo?_eq_some_iff`).
-/

namespace Stopwatch.Prime

variable {lo hi n : Int64} {found c : ℕ}

/-! ## The number of primes in a range -/

/-- A negative number has no natural number but zero, which is not prime. -/
theorem card_primes_add_below (lo : ℤ) (count : ℕ) :
    ((Finset.Ico lo (lo + count)).filter fun n => n.toNat.Prime).card + below lo =
      below (lo + count) := by
  induction count with
  | zero => simp
  | succ count ih =>
    have hlast : Finset.Ico lo (lo + (count + 1 : ℕ)) =
        insert (lo + count) (Finset.Ico lo (lo + count)) := by
      ext n
      simp only [Finset.mem_Ico, Finset.mem_insert]
      omega
    rw [hlast, Finset.filter_insert, show lo + ((count + 1 : ℕ) : ℤ) = lo + count + 1 by omega,
      below_add_one_int, ← ih]
    split_ifs
    · rw [Finset.card_insert_of_notMem (by simp)]
      omega
    · omega

/-! ## The loop -/

/-- A run of the loop from a number on that comes to its end, with what it has found before and in
the end. -/
inductive Counts (hi : Int64) : Int64 → ℕ → ℕ → Prop
  | done {n : Int64} {found : ℕ} : ¬ n ≤ hi → Counts hi n found found
  | next {n : Int64} {found c : ℕ} :
      n ≤ hi → Counts hi (n + 1) (if isPrime n then found + 1 else found) c → Counts hi n found c

/-- **No run up to the greatest word comes to its end**, since the counter is never beyond it. -/
theorem not_counts_maxValue : ¬ Counts Int64.maxValue n found c := by
  intro h
  induction h with
  | @done n _ hgt => exact hgt (Int64.le_iff_toInt_le.mpr n.toInt_le)
  | next _ _ ih => exact ih

theorem countTo?_of_lt (h : hi < n) : countTo? hi n found = some found := by
  rw [countTo?, if_neg (Int64.not_le.mpr h)]

theorem countTo?_of_le (h : n ≤ hi) (hmax : n ≠ Int64.maxValue) :
    countTo? hi n found = countTo? hi (n + 1) (if isPrime n then found + 1 else found) := by
  rw [countTo?, if_pos h, dif_neg hmax]

/-- **The answers are those of the runs that come to an end.** -/
theorem countTo?_eq_some_iff : countTo? hi n found = some c ↔ Counts hi n found c := by
  constructor
  · intro h
    fun_induction countTo? hi n found with
    | case1 => exact absurd h (Option.some_ne_none c).symm
    | case2 n found hle _ ih => exact .next hle (ih h)
    | case3 n found hgt => exact Option.some_inj.mp h ▸ .done hgt
  · intro h
    induction h with
    | done hgt => exact countTo?_of_lt (Int64.not_le.mp hgt)
    | @next n found c hle hrest ih =>
      have hmax : n ≠ Int64.maxValue := by
        rintro rfl
        obtain rfl : hi = Int64.maxValue :=
          Int64.le_antisymm (Int64.le_iff_toInt_le.mpr hi.toInt_le) hle
        exact not_counts_maxValue hrest
      rw [countTo?_of_le hle hmax, ih]

/-- **A loop that can get past the upper end** tests every number up to it. -/
theorem countTo?_eq_countFrom (hne : hi ≠ Int64.maxValue) (count : ℕ)
    (h : n.toInt + count = hi.toInt + 1) :
    countTo? hi n found = some (countFrom count n found) := by
  induction count generalizing n found with
  | zero =>
    rw [countTo?_of_lt (Int64.lt_iff_toInt_lt.mpr (by omega))]
    rfl
  | succ count ih =>
    have hmax : n ≠ Int64.maxValue := by
      rintro rfl
      have htop := hi.toInt_le
      exact hne (Int64.toInt_inj.mp (by omega))
    rw [countTo?_of_le (Int64.le_iff_toInt_le.mpr (by omega)) hmax,
      ih (by rw [toInt_add_one hmax]; omega)]
    rfl

/-! ## The range -/

theorem count?_maxValue (lo : Int64) : count? lo Int64.maxValue = none := by
  rw [Option.eq_none_iff_forall_ne_some]
  intro c hc
  exact not_counts_maxValue (countTo?_eq_some_iff.mp hc)

theorem count?_of_lt (h : hi < lo) : count? lo hi = some 0 := countTo?_of_lt h

theorem count?_of_ne (hne : hi ≠ Int64.maxValue) :
    count? lo hi = some ((Finset.Icc lo.toInt hi.toInt).filter fun n => n.toNat.Prime).card := by
  by_cases hlt : hi < lo
  · have hempty : Finset.Icc lo.toInt hi.toInt = ∅ :=
      Finset.Icc_eq_empty (not_le.mpr (Int64.lt_iff_toInt_lt.mp hlt))
    rw [count?_of_lt hlt, hempty, Finset.filter_empty, Finset.card_empty]
  · rw [Int64.lt_iff_toInt_lt] at hlt
    obtain ⟨count, hcount⟩ := Int.eq_ofNat_of_zero_le (show 0 ≤ hi.toInt + 1 - lo.toInt by omega)
    have htop : hi.toInt < 2 ^ 63 - 1 :=
      lt_of_le_of_ne hi.toInt_le fun h => hne (Int64.toInt_inj.mp h)
    have hrange : Finset.Icc lo.toInt hi.toInt = Finset.Ico lo.toInt (lo.toInt + count) := by
      ext n
      simp only [Finset.mem_Icc, Finset.mem_Ico]
      omega
    have hloop := countFrom_add_below count lo 0 (by omega)
    have hcard := card_primes_add_below lo.toInt count
    rw [count?, countTo?_eq_countFrom hne count (by omega), hrange, Option.some_inj]
    omega

/-- **A range is counted exactly if it does not go up to the greatest number.** The loop then comes
to its end, and the count is the number of primes in the range, of which there are none below zero
and none in an empty range. A loop up to the greatest number never ends, wherever it starts. -/
theorem range_counted_iff (lo hi : Int64) (c : ℕ) :
    (count? lo hi = some c ↔ Counts hi lo 0 c) ∧
    (Counts hi lo 0 c ↔
      hi ≠ Int64.maxValue ∧
        c = ((Finset.Icc lo.toInt hi.toInt).filter fun n => n.toNat.Prime).card) := by
  have hrun : count? lo hi = some c ↔ Counts hi lo 0 c := countTo?_eq_some_iff
  refine ⟨hrun, ?_⟩
  rw [← hrun]
  by_cases hmax : hi = Int64.maxValue
  · rw [hmax, count?_maxValue]
    constructor
    · intro h
      exact absurd h.symm (Option.some_ne_none c)
    · rintro ⟨hne, -⟩
      exact absurd rfl hne
  · rw [count?_of_ne hmax, Option.some_inj, and_iff_right hmax]
    exact eq_comm

/-- The greatest prime that is a signed word is in this range, but the loop does not come back from
it. -/
theorem greatest_range_not_counted :
    count? 9223372036854775783 9223372036854775807 = none ∧
      ¬ ∃ c, Counts 9223372036854775807 9223372036854775783 0 c :=
  ⟨count?_maxValue _, fun ⟨_, h⟩ => not_counts_maxValue h⟩

end Stopwatch.Prime
