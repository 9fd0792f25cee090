import Stopwatch.Proofs.Prime.Range
import Stopwatch.Proofs.Workload.Limits

/-!
# The prime scan

A scan has room if its last number is still a signed word. The counter then passes through all
numbers after the start (`toInt_snd_scanFrom`), the primes among them are handed out in order
(`mem_primesAfter_iff`, `pairwise_primesAfter`), and as many are counted (`fst_scanFrom_eq_card`).
Up to its limit, and no further, a scan has room.
-/

namespace Stopwatch.Workload

open Stopwatch.Prime

variable {start last n : Int64} {printing : Bool} {count found : ℕ} {k : UInt64}

/-! ## The loop -/

/-- **The counter** is as far from the start as there were steps. -/
theorem toInt_snd_scanFrom (h : last.toInt + count < 2 ^ 63) :
    (scanFrom count last found).2.toInt = last.toInt + count := by
  induction count generalizing last found with
  | zero => exact (Int.add_zero _).symm
  | succ count ih =>
    have hnext := toInt_add_one_of_lt (p := last) (by omega)
    rw [scanFrom, ih (by omega), hnext]
    omega

/-- **The primes that are handed out** are those among the numbers passed through. -/
theorem mem_primesAfter_iff (h : last.toInt + count < 2 ^ 63) :
    n ∈ primesAfter count last ↔ n.toInt ∈ Finset.Ioc last.toInt (last.toInt + count) ∧
      n.toInt.toNat.Prime := by
  induction count generalizing last with
  | zero =>
    rw [primesAfter, Finset.mem_Ioc]
    exact iff_of_false List.not_mem_nil fun hn => by omega
  | succ count ih =>
    have hnext := toInt_add_one_of_lt (p := last) (by omega)
    have hrest : n ∈ primesAfter count (last + 1) ↔ _ := ih (by omega)
    rw [Finset.mem_Ioc, hnext] at hrest
    have hfirst : n = last + 1 ↔ n.toInt = last.toInt + 1 := by rw [← hnext, Int64.toInt_inj]
    rw [primesAfter, Finset.mem_Ioc]
    split_ifs with hprime
    · rw [isPrime_iff_toNat, hnext] at hprime
      rw [List.mem_cons, hrest, hfirst]
      constructor
      · rintro (he | ⟨hn, hp⟩)
        · exact ⟨by omega, he ▸ hprime⟩
        · exact ⟨by omega, hp⟩
      · rintro ⟨hn, hp⟩
        exact or_iff_not_imp_left.mpr fun hne => ⟨by omega, hp⟩
    · rw [isPrime_iff_toNat, hnext] at hprime
      rw [hrest]
      constructor
      · rintro ⟨hn, hp⟩
        exact ⟨by omega, hp⟩
      · rintro ⟨hn, hp⟩
        have hne : n.toInt ≠ last.toInt + 1 := fun he => hprime (he ▸ hp)
        exact ⟨by omega, hp⟩

/-- They are handed out in increasing order, so none of them twice. -/
theorem pairwise_primesAfter (h : last.toInt + count < 2 ^ 63) :
    (primesAfter count last).Pairwise (· < ·) := by
  induction count generalizing last with
  | zero => exact .nil
  | succ count ih =>
    have hnext := toInt_add_one_of_lt (p := last) (by omega)
    have hrest : (primesAfter count (last + 1)).Pairwise (· < ·) := ih (by omega)
    rw [primesAfter]
    split_ifs
    · refine hrest.cons ?_
      intro m hm
      rw [mem_primesAfter_iff (by omega), Finset.mem_Ioc] at hm
      exact Int64.lt_iff_toInt_lt.mpr hm.1.1
    · exact hrest

/-- **The primes that are counted** are as many as there are among the numbers passed through. -/
theorem fst_scanFrom_eq_card (h : last.toInt + count < 2 ^ 63) :
    (scanFrom count last 0).1 =
      ((Finset.Ioc last.toInt (last.toInt + count)).filter fun n => n.toNat.Prime).card := by
  cases count with
  | zero => simp [scanFrom]
  | succ count =>
    have hnext := toInt_add_one_of_lt (p := last) (by omega)
    have hrange : Finset.Ioc last.toInt (last.toInt + (count + 1 : ℕ)) =
        Finset.Ico (last + 1).toInt ((last + 1).toInt + (count + 1 : ℕ)) := by
      ext n
      rw [hnext, Finset.mem_Ioc, Finset.mem_Ico]
      omega
    have hloop := countFrom_add_below (count + 1) (last + 1) 0 (by omega)
    have hcard := card_primes_add_below (last + 1).toInt (count + 1)
    rw [fst_scanFrom, hrange]
    omega

/-! ## The workload -/

/-- **A scan is exact, wherever it starts.** Up to its limit, which is the greatest number of
iterations for which the last number is still a signed word, its counter passes through the numbers
after the start without a wrap. It reports the last of them and how many of them are prime, and if
it prints, it prints those, each once and in increasing order. -/
theorem scan_exact (start : Int64) (printing : Bool) :
    (((primeScan start printing).limit.toNat : ℤ) =
        min (Int64.maxValue.toInt - start.toInt) Int64.maxValue.toInt ∧
      ∀ k ≤ maxIterations,
        k ≤ (primeScan start printing).limit ↔ start.toInt + k.toNat ≤ Int64.maxValue.toInt) ∧
    ∀ k ≤ (primeScan start printing).limit, ∀ i,
      (∀ j ≤ k.toNat, (scanFrom j start 0).2.toInt = start.toInt + j) ∧
      (((primeScan start printing).plan k).reply i).outcome.iterations = k ∧
      (((primeScan start printing).plan k).reply i).outcome.last.toInt = start.toInt + k.toNat ∧
      (((primeScan start printing).plan k).reply i).outcome.primes =
        ((Finset.Ioc start.toInt (start.toInt + k.toNat)).filter fun n => n.toNat.Prime).card ∧
      (((primeScan start printing).plan k).reply i).printed.Pairwise (· < ·) ∧
      ∀ n, n ∈ (((primeScan start printing).plan k).reply i).printed ↔
        printing = true ∧ n.toInt ∈ Finset.Ioc start.toInt (start.toInt + k.toNat) ∧
          n.toInt.toNat.Prime := by
  refine ⟨⟨toNat_limit_primeScan start printing, fun k h => le_limit_primeScan_iff h⟩, ?_⟩
  intro k h i
  have hroom := room_of_le_limit h
  have hprinted : (((primeScan start printing).plan k).reply i).printed =
      if printing then primesAfter k.toNat start else [] := rfl
  refine ⟨?_, rfl, toInt_snd_scanFrom hroom, ?_, ?_, ?_⟩
  · intro j hj
    exact toInt_snd_scanFrom (by omega)
  · exact congrArg Int.ofNat (fst_scanFrom_eq_card hroom)
  · rw [hprinted]
    split_ifs
    · exact pairwise_primesAfter hroom
    · exact .nil
  · intro n
    rw [hprinted]
    cases printing with
    | false => exact iff_of_false List.not_mem_nil fun h => Bool.false_ne_true h.1
    | true => exact (mem_primesAfter_iff hroom).trans (and_iff_right rfl).symm

/-- The longest scan from the least word, which ends just below zero. -/
theorem scan_exact_of_least :
    0x7fffffffffffffff ≤ (primeScan Int64.minValue true).limit ∧
      (((primeScan Int64.minValue true).plan 0x7fffffffffffffff).reply 0).outcome.last.toInt =
        Int64.minValue.toInt + 0x7fffffffffffffff := by
  have h : 0x7fffffffffffffff ≤ (primeScan Int64.minValue true).limit := by decide
  exact ⟨h, ((scan_exact Int64.minValue true).2 _ h 0).2.2.1⟩

end Stopwatch.Workload
