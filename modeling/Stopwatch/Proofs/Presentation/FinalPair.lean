import Mathlib.Algebra.Ring.Parity
import Stopwatch.Dashboard.RunLog
import Stopwatch.Proofs.Session.Agreement

/-!
# The final pair

A result is shown with the line `Final pair` unless both words of its pair are zero, which stands
for a benchmark that has computed nothing. The words wrap, so that zero words are not ruled out by
their size. What rules them out is parity: a step turns a pair with an odd word into a pair with an
odd word, since of two words and their sum an even number is odd, and the sum of words wraps at an
even number (`Pair.hasOdd_step`). The first pair has an odd word, and so has every pair after it
(`hasOdd_start_advance`).

So a Fibonacci benchmark with at least one completed run has a line, in every theme and on the log
of the dashboard, and one without has none (`final_pair_shown`).
-/

namespace Stopwatch

namespace Fibonacci

/-! ## Parity -/

/-- At least one of the two words is odd. -/
def Pair.HasOdd (p : Pair) : Prop := Odd p.t1.toNat ∨ Odd p.t2.toNat

/-- Words wrap at an even number, so their sums have the parity they should have. -/
theorem odd_toNat_add_iff (a b : UInt64) : Odd (a + b).toNat ↔ (Odd a.toNat ↔ Even b.toNat) := by
  rw [UInt64.toNat_add, ← Nat.odd_add, Nat.odd_iff, Nat.odd_iff, Nat.mod_mod_of_dvd _ (by norm_num)]

/-- One step. -/
theorem Pair.hasOdd_step (p : Pair) : p.step.HasOdd ↔ p.HasOdd := by
  simp only [Pair.HasOdd, Pair.step, odd_toNat_add_iff, ← Nat.not_odd_iff_even]
  tauto

/-- All steps. -/
theorem hasOdd_iterate (n : ℕ) (p : Pair) : (iterate n p.t1 p.t2).HasOdd ↔ p.HasOdd := by
  induction n generalizing p with
  | zero => rfl
  | succ n ih => exact (ih p.step).trans p.hasOdd_step

theorem hasOdd_start_advance (k : UInt64) : (Pair.start.advance k).HasOdd :=
  (hasOdd_iterate k.toNat Pair.start).mpr (.inr odd_one)

theorem Pair.HasOdd.ne_zero {p : Pair} (h : p.HasOdd) : p ≠ ⟨0, 0⟩ := by
  rintro rfl
  rcases h with h | h <;> exact absurd h (by decide)

end Fibonacci

namespace Presentation

open Fibonacci

variable {σ : Type} {S : Surroundings σ} {r : Result}

/-! ## The line -/

/-- The line about a pair that was found with a number of iterations. -/
def finalPairLine (theme : Theme) (p : Pair) (k : UInt64) : Text :=
  "Final pair: t1=" ++ theme.paint theme.primary (Text.ofNat p.t1.toNat) ++ " t2=" ++
    theme.paint theme.primary (Text.ofNat p.t2.toNat) ++ (" (K=" ++ Whole.groupedNat k.toNat ++ ")")

theorem finalPairLine_ne_empty (theme : Theme) (p : Pair) (k : UInt64) :
    finalPairLine theme p k ≠ ∅ := by
  intro h
  have hlength := congrArg (fun t : Text => t.bytes.length) h
  have hhead : 0 < (Text.ofString "Final pair: t1=").bytes.length := by decide
  simp only [finalPairLine, Text.bytes_append, List.length_append, Text.bytes_empty,
    List.length_nil] at hlength
  omega

theorem outcomeLine_of_primes_eq_zero (theme : Theme) (h : r.report.outcome.primes = 0) :
    outcomeLine theme r =
      if r.report.outcome.pair = ⟨0, 0⟩ then ∅
      else finalPairLine theme r.report.outcome.pair r.report.outcome.iterations := by
  have hpair : (r.report.outcome.t1 != 0 || r.report.outcome.t2 != 0) = true ↔
      ¬ r.report.outcome.pair = ⟨0, 0⟩ := by
    simp [Outcome.pair, imp_iff_not_or]
  unfold outcomeLine
  simp only [h, lt_irrefl, if_false, hpair, ite_not]
  rfl

theorem outcomeLine_of_pair (theme : Theme) {p : Pair} {k : UInt64}
    (h : r.report.outcome = { iterations := k, t1 := p.t1, t2 := p.t2 }) (hp : p.HasOdd) :
    outcomeLine theme r = finalPairLine theme p k := by
  have hpair : r.report.outcome.pair = p := by rw [h]; rfl
  have hk : r.report.outcome.iterations = k := by rw [h]
  rw [outcomeLine_of_primes_eq_zero theme (by rw [h]), hpair, hk, if_neg hp.ne_zero]

/-- A line that is not empty stands on the log. -/
theorem settle_outcomeLine_mem (p : Presentation) (h : outcomeLine .plain r ≠ ∅) :
    Block.settle (outcomeLine .plain r) ∈ RunLog.resultLines p r := by
  have hne : (outcomeLine .plain r).isEmpty = false := by rwa [← Bool.not_eq_true, Text.isEmpty_iff]
  exact List.mem_cons_of_mem _
    (List.mem_map_of_mem (List.mem_filter.mpr ⟨List.mem_cons_self, by rw [hne]; rfl⟩))

/-! ## Benchmarks -/

/-- What is reported of a Fibonacci benchmark with a completed run. -/
theorem outcome_of_samples (hS : S.Answers) (schedule : Schedule) (index : ℤ) (s : σ)
    (h : (Benchmark.run S schedule index .fibonacci s).report.samples ≠ []) :
    let k := Benchmark.iterationsOf schedule .fibonacci
    let p := Pair.start.advance k
    (Benchmark.run S schedule index .fibonacci s).report.outcome =
      { iterations := k, t1 := p.t1, t2 := p.t2 } := by
  obtain ⟨j, hj⟩ := Benchmark.exists_reply_of_samples hS h
  exact hj

/-- **A Fibonacci run always has an outcome to show.** However many steps are taken, a word of the
pair is odd, so the pair is never zero though both words wrap. The line of a Fibonacci benchmark in
any theme is that of the pair and the number of iterations of its runs if at least one was
completed, is not empty then and stands on the log of the dashboard; otherwise there is none. -/
theorem final_pair_shown (S : Surroundings σ) (hS : S.Answers) :
    (∀ k : UInt64, (Odd (Pair.start.advance k).t1.toNat ∨ Odd (Pair.start.advance k).t2.toNat) ∧
      Pair.start.advance k ≠ ⟨0, 0⟩) ∧
    ∀ (schedule : Schedule) (index : ℤ) (s : σ),
      let e := Benchmark.run S schedule index .fibonacci s
      let r : Result := ⟨some .fibonacci, e.report, e.fault⟩
      let k := Benchmark.iterationsOf schedule .fibonacci
      (e.report.samples ≠ [] →
        e.report.outcome =
          { iterations := k, t1 := (Pair.start.advance k).t1, t2 := (Pair.start.advance k).t2 } ∧
        (∀ theme, outcomeLine theme r = finalPairLine theme (Pair.start.advance k) k ∧
          outcomeLine theme r ≠ ∅) ∧
        ∀ p, Block.settle (finalPairLine .plain (Pair.start.advance k) k) ∈
          RunLog.resultLines p r) ∧
      (e.report.samples = [] → ∀ theme, outcomeLine theme r = ∅) := by
  refine ⟨fun k => ⟨hasOdd_start_advance k, (hasOdd_start_advance k).ne_zero⟩,
    fun schedule index s => ?_⟩
  intro e r k
  refine ⟨fun hsamples => ?_, fun hsamples theme => ?_⟩
  · have houtcome := outcome_of_samples hS schedule index s hsamples
    have hline : ∀ theme, outcomeLine theme r = finalPairLine theme (Pair.start.advance k) k :=
      fun theme => outcomeLine_of_pair theme houtcome (hasOdd_start_advance k)
    have hne : ∀ theme, outcomeLine theme r ≠ ∅ := fun theme => by
      rw [hline theme]
      exact finalPairLine_ne_empty theme _ k
    refine ⟨houtcome, fun theme => ⟨hline theme, hne theme⟩, fun p => ?_⟩
    rw [← hline .plain]
    exact settle_outcomeLine_mem p (hne .plain)
  · have houtcome := Benchmark.outcome_of_no_samples hsamples
    rw [outcomeLine_of_primes_eq_zero theme (by rw [houtcome]), houtcome]
    rfl

/-- A benchmark of two runs with ten iterations each. -/
theorem final_pair_shown_of_ten :
    let e := Benchmark.run World.surroundings ⟨2, 10⟩ 0 .fibonacci {}
    e.report.samples ≠ [] ∧
      outcomeLine .plain ⟨some .fibonacci, e.report, e.fault⟩ =
        "Final pair: t1=55 t2=89 (K=10)" := by
  intro e
  have hsamples : e.report.samples ≠ [] := by decide
  obtain ⟨-, hshown⟩ := final_pair_shown World.surroundings (fun _ _ _ => rfl)
  obtain ⟨-, hline, -⟩ := (hshown ⟨2, 10⟩ 0 {}).1 hsamples
  exact ⟨hsamples, (hline .plain).1.trans (by cbv)⟩

end Presentation

end Stopwatch
