import Stopwatch.Proofs.Session.FirstFailure
import Stopwatch.Proofs.Session.Workloads
import Stopwatch.Proofs.Summary.Mean

/-!
# The exit code of a session

The exit code is picked after the results have been ranked by their means. It is still that of the
first failure in the order of execution (`exit_session`), because of which failures can come
together:

* a benchmark that is refused has no samples, and so has one that is never begun: their means are
zero;
* at most one benchmark is interrupted, and all that come after it fail for the same cause.

So a failure can be ranked before an earlier one only if the earlier one was interrupted, and then
both have the same exit code. This rests on two laws of the surroundings: a session that has ended
stays so, and the clock never runs backwards (`Surroundings.Lawful`).
-/

namespace Stopwatch

open Rounding
open Fault (exitCode_benchmark exitCode_ne_success)

variable {σ : Type} {S : Surroundings σ} {s : σ}

namespace Session

variable {schedule : Schedule} {index : Int} {w : Workload} {ws : List Workload}

/-- A result has a mean that is a number and not negative, and a fault unless all planned runs were
made. -/
structure Sound (schedule : Schedule) (r : Result) : Prop where
  isNumber : r.report.summary.mean.isNaN = false
  nonneg : 0 ≤ value r.report.summary.mean
  completed_iff : r.fault = none ↔ (r.report.samples.length : Int) = schedule.runs

/-- A result without samples and with a fault. -/
theorem sound_of_no_samples {name : Text} {f : Fault} (hruns : 1 ≤ schedule.runs) :
    Sound schedule ⟨some w, { name }, some f⟩ :=
  ⟨isNaN_zero, value_zero.ge, fun h => absurd h (by simp), fun h => absurd h (by simp; omega)⟩

theorem sound_run (hS : S.Lawful s) (hruns : 1 ≤ schedule.runs) :
    Sound schedule ⟨some w, (Benchmark.run S schedule index w s).report,
      (Benchmark.run S schedule index w s).fault⟩ := by
  rcases Benchmark.refusal?_cases schedule w with ⟨-, field, message, h⟩ | ⟨hr, h⟩
  · rw [Benchmark.run_of_refusal h]
    exact sound_of_no_samples hruns
  · obtain ⟨laps, last, hran⟩ := Benchmark.run_ran S index s h hr
    have hnonneg : ∀ d ∈ (Benchmark.run S schedule index w s).report.samples, 0 ≤ d.toInt := by
      rw [hran.samples, List.forall_mem_map]
      exact hran.made.sample_nonneg (hS.of_reaches (.clock .refl))
    obtain ⟨h1, h2⟩ := Summary.mean_ofDurations hnonneg
    have hsum : (Benchmark.run S schedule index w s).report.summary =
        Summary.ofDurations (Benchmark.run S schedule index w s).report.samples := hran.summary
    exact ⟨by rw [hsum]; exact h1, by rw [hsum]; exact h2, hran.fault_eq_none_iff⟩

theorem sound_results (hruns : 1 ≤ schedule.runs) (ws : List Workload) :
    ∀ (index : Int) (s : σ), S.Lawful s →
      ∀ r ∈ (runFrom S schedule index ws s).results, Sound schedule r := by
  induction ws with
  | nil => exact fun _ _ _ => List.forall_mem_nil _
  | cons w ws ih =>
    intro index s hS
    have hchecked : S.Reaches s (S.check s).2 := .check .refl
    rcases h : S.check s with ⟨_ | cause, checked⟩ <;> rw [h] at hchecked
    · rw [runFrom_of_not_ended h]
      have hS' := hS.of_reaches hchecked
      exact List.forall_mem_cons.mpr ⟨sound_run hS' hruns, ih _ _ (hS'.of_reaches reaches_run)⟩
    · rw [runFrom_of_ended h]
      exact List.forall_mem_cons.mpr ⟨sound_of_no_samples hruns, ih _ _ (hS.of_reaches hchecked)⟩

/-- **The results of a session are orderly**: only an interrupted benchmark fails with a mean above
zero, and everything after it fails for the same cause. -/
theorem orderly_results (ws : List Workload) :
    ∀ (index : Int) (s : σ), S.Lawful s →
      Verdict.Orderly (runFrom S schedule index ws s).results := by
  induction ws with
  | nil => exact fun _ _ _ => .nil
  | cons w ws ih =>
    intro index s hS
    have hchecked : S.Reaches s (S.check s).2 := .check .refl
    rcases h : S.check s with ⟨_ | cause, checked⟩ <;> rw [h] at hchecked
    · have hS' := hS.of_reaches hchecked
      rw [runFrom_of_not_ended h]
      rcases Benchmark.refusal?_cases schedule w with ⟨-, field, message, href⟩ | ⟨hr, href⟩
      · rw [Benchmark.run_of_refusal href]
        exact .failed rfl (.inl value_zero.le)
      · obtain ⟨laps, last, hran⟩ := Benchmark.run_ran S index checked href hr
        have hreach := hran.reaches
        cases hf : (Benchmark.run S schedule index w checked).fault with
        | none => exact .completed rfl (ih _ _ (hS'.of_reaches hreach))
        | some f =>
          -- The session had ended when the next lap was to begin, and this lasts through the rest.
          obtain ⟨cause, rfl, hend⟩ := hran.check_state hS'.endLasts hf
          refine .failed rfl (.inr fun x hx g hg => ?_)
          rw [results_of_ended ws _ _ (hS'.of_reaches hreach).endLasts hend] at hx
          obtain ⟨v, -, rfl⟩ := List.mem_map.mp hx
          obtain rfl : Fault.benchmark v.name cause = g := Option.some.inj hg
          rw [exitCode_benchmark, exitCode_benchmark]
    · rw [runFrom_of_ended h]
      exact .failed rfl (.inl value_zero.le)

/-- **The exit code of a session.** It tells of a disagreement between completed benchmarks if there
is one. Else it is success exactly if every workload completed all its runs, and otherwise it is the
exit code of the first failure in the order of execution. -/
theorem exit_session (S : Surroundings σ) (schedule : Schedule) (ws : List Workload)
    (s : σ) (hS : S.Lawful s) (hruns : 1 ≤ schedule.runs) :
    let results := (run S schedule ws s).results
    let exit := (Verdict.ofResults results).exit
    results.map (·.workload) = ws.map some ∧
      ((∃ a ∈ results, ∃ b ∈ results, Disagreement.Between a b) → exit = ExitCode.mismatch) ∧
      ((¬ ∃ a ∈ results, ∃ b ∈ results, Disagreement.Between a b) →
        (exit = ExitCode.success ↔ ∀ r ∈ results, (r.report.samples.length : Int) = schedule.runs) ∧
        (exit ≠ ExitCode.success → ∃ before r after f, results = before ++ r :: after ∧
          (∀ x ∈ before, x.fault = none) ∧ r.fault = some f ∧ exit = f.exitCode)) := by
  intro results exit
  have hsound : ∀ r ∈ results, Sound schedule r := sound_results hruns ws 0 s hS
  obtain ⟨hmismatch, hother⟩ := Verdict.exit_ofResults results
  refine ⟨workload_results S schedule ws 0 s, hmismatch, fun hagree => ?_⟩
  have hexit : exit = Fault.exitCodeOf (Verdict.firstFault results) :=
    (hother hagree).trans (Verdict.exitCodeOf_firstFault_rank (orderly_results ws 0 s hS)
      fun r hr => ⟨(hsound r hr).isNumber, (hsound r hr).nonneg⟩)
  cases hf : Verdict.firstFault results with
  | none =>
    rw [hf] at hexit
    have hnone := List.findSome?_eq_none_iff.mp hf
    exact ⟨⟨fun _ r hr => (hsound r hr).completed_iff.mp (hnone r hr), fun _ => hexit⟩,
      fun hne => absurd hexit hne⟩
  | some f =>
    rw [hf] at hexit
    obtain ⟨before, r, after, heq, hr, hbefore⟩ := List.findSome?_eq_some_iff.mp hf
    have hne : exit ≠ ExitCode.success := fun h => exitCode_ne_success f (hexit.symm.trans h)
    refine ⟨⟨fun h => absurd h hne, fun hall => ?_⟩,
      fun _ => ⟨before, r, after, f, heq, hbefore, hr, hexit⟩⟩
    have hmem : r ∈ results := by simp [heq]
    rw [(hsound r hmem).completed_iff.mpr (hall r hmem)] at hr
    exact absurd hr (by simp)

/-- Two workloads of which the first is canceled during its second run, and the second is never
begun. -/
def canceledWorkloads : List Workload :=
  [{ name := "slow", plan := fun _ => .always { takes := 5 } },
    { name := "next", plan := fun _ => default }]

/-- The workload that is never begun is ranked first, and the exit code is still that of the first
failure. -/
theorem exit_session_of_cancel :
    (Verdict.ofResults (run World.surroundings ⟨3, 1⟩ canceledWorkloads
      { canceled := some ⟨7⟩ }).results).exit =
      ExitCode.canceled := by
  have h := exit_session World.surroundings ⟨3, 1⟩ canceledWorkloads { canceled := some ⟨7⟩ }
    (World.lawful_surroundings rfl) (by decide)
  have hfaults :
      (run World.surroundings ⟨3, 1⟩ canceledWorkloads { canceled := some ⟨7⟩ }).results.map
        (·.fault) = [some (.benchmark "slow" .canceled), some (.benchmark "next" .canceled)] := rfl
  have hlengths :
      (run World.surroundings ⟨3, 1⟩ canceledWorkloads { canceled := some ⟨7⟩ }).results.map
        (·.report.samples.length) = [2, 0] := rfl
  generalize (run World.surroundings ⟨3, 1⟩ canceledWorkloads { canceled := some ⟨7⟩ }).results =
    results at *
  have hall : ∀ r ∈ results, ∃ name, r.fault = some (.benchmark name .canceled) := by
    intro r hr
    have := List.mem_map_of_mem (f := (·.fault)) hr
    rw [hfaults] at this
    simp only [List.mem_cons, List.not_mem_nil, or_false] at this
    exact this.elim (fun h => ⟨_, h⟩) fun h => ⟨_, h⟩
  obtain ⟨-, -, h⟩ := h
  obtain ⟨hsuccess, hfirst⟩ := h fun ⟨a, ha, b, _, v, w, hfa, _⟩ => by
    obtain ⟨name, hname⟩ := hall a ha
    rw [hfa] at hname
    exact absurd hname (by simp)
  obtain ⟨before, r, after, f, heq, -, hf, hexit⟩ := hfirst fun hs => by
    obtain ⟨r, hr, hlength⟩ := List.mem_map.mp (hlengths ▸ List.mem_cons_self : 2 ∈ results.map _)
    have := hsuccess.mp hs r hr
    rw [hlength] at this
    exact absurd this (by decide)
  obtain ⟨name, hname⟩ := hall r (by simp [heq])
  obtain rfl : Fault.benchmark name .canceled = f := Option.some.inj (hname.symm.trans hf)
  rw [hexit, exitCode_benchmark]
  rfl

end Session

end Stopwatch
