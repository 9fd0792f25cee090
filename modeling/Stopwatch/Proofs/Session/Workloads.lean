import Stopwatch.Proofs.Benchmark.Lawful
import Stopwatch.Session

/-!
# The workloads of a session

A session looks whether it has ended before each workload. What it then does with the workload is
said here once, for its results, its notices and the state it leaves, and from that what a session
does that has ended (`results_of_ended`): every workload that is left has a result that says so, and
none is begun.
-/

namespace Stopwatch.Session

variable {σ : Type} {S : Surroundings σ} {s checked : σ} {schedule : Schedule}
  {index : Int} {w : Workload} {ws : List Workload} {cause : Fault}

/-! ## One workload -/

theorem runFrom_of_ended (h : S.check s = (some cause, checked)) :
    (runFrom S schedule index (w :: ws) s).results =
      ⟨some w, { name := w.name }, some (.benchmark w.name cause)⟩ ::
        (runFrom S schedule (index + 1) ws checked).results := by
  rw [runFrom, h]

theorem notices_of_ended (h : S.check s = (some cause, checked)) :
    (runFrom S schedule index (w :: ws) s).notices =
      (runFrom S schedule (index + 1) ws checked).notices := by
  rw [runFrom, h]

theorem state_of_ended (h : S.check s = (some cause, checked)) :
    (runFrom S schedule index (w :: ws) s).state =
      (runFrom S schedule (index + 1) ws checked).state := by
  rw [runFrom, h]

theorem runFrom_of_not_ended (h : S.check s = (none, checked)) :
    (runFrom S schedule index (w :: ws) s).results =
      ⟨some w, (Benchmark.run S schedule index w checked).report,
        (Benchmark.run S schedule index w checked).fault⟩ ::
        (runFrom S schedule (index + 1) ws
          (Benchmark.run S schedule index w checked).state).results := by
  rw [runFrom, h]

theorem notices_of_not_ended (h : S.check s = (none, checked)) :
    (runFrom S schedule index (w :: ws) s).notices =
      ((S.opening w).map fun e => ⟨S.now checked, .entry e⟩) ++
        (Benchmark.run S schedule index w checked).notices ++
        (runFrom S schedule (index + 1) ws
          (Benchmark.run S schedule index w checked).state).notices := by
  rw [runFrom, h]

theorem state_of_not_ended (h : S.check s = (none, checked)) :
    (runFrom S schedule index (w :: ws) s).state =
      (runFrom S schedule (index + 1) ws
        (Benchmark.run S schedule index w checked).state).state := by
  rw [runFrom, h]

theorem reaches_checked {answer : Option Fault} (h : S.check s = (answer, checked)) :
    S.Reaches s checked := by
  have hcheck : S.Reaches s (S.check s).2 := .check .refl
  rwa [h] at hcheck

theorem reaches_run : S.Reaches s (Benchmark.run S schedule index w s).state := by
  rcases Benchmark.refusal?_cases schedule w with ⟨-, field, message, h⟩ | ⟨hr, h⟩
  · rw [Benchmark.run_of_refusal h]
    exact .refl
  · obtain ⟨laps, last, hran⟩ := Benchmark.run_ran S index s h hr
    exact hran.reaches

/-! ## All workloads -/

theorem reaches_runFrom (S : Surroundings σ) (schedule : Schedule)
    (ws : List Workload) (index : Int) (s : σ) :
    S.Reaches s (runFrom S schedule index ws s).state := by
  induction ws generalizing index s with
  | nil => exact .refl
  | cons w ws ih =>
    rcases h : S.check s with ⟨_ | cause, checked⟩
    · rw [state_of_not_ended h]
      exact (reaches_checked h).trans (reaches_run.trans (ih _ _))
    · rw [state_of_ended h]
      exact (reaches_checked h).trans (ih _ _)

/-- There is one result for each workload, in order. -/
theorem workload_results (S : Surroundings σ) (schedule : Schedule)
    (ws : List Workload) (index : Int) (s : σ) :
    (runFrom S schedule index ws s).results.map (·.workload) = ws.map some := by
  induction ws generalizing index s with
  | nil => rfl
  | cons w ws ih =>
    rcases h : S.check s with ⟨_ | cause, checked⟩
    · rw [runFrom_of_not_ended h, List.map_cons, List.map_cons, ih]
    · rw [runFrom_of_ended h, List.map_cons, List.map_cons, ih]

/-- **Once the session has ended, no workload is begun**, and all fail for its cause. -/
theorem results_of_ended (ws : List Workload) :
    ∀ (index : Int) (s : σ), S.EndLasts s → (S.check s).1 = some cause →
      (runFrom S schedule index ws s).results =
        ws.map fun w => ⟨some w, { name := w.name }, some (.benchmark w.name cause)⟩ := by
  induction ws with
  | nil => exact fun _ _ _ _ => rfl
  | cons w ws ih =>
    intro index s hS hcause
    have hchecked : S.Reaches s (S.check s).2 := .check .refl
    have hlasts := hS .refl hchecked hcause
    rcases h : S.check s with ⟨c, checked⟩
    rw [h] at hcause hchecked hlasts
    obtain rfl : c = some cause := hcause
    rw [runFrom_of_ended h, ih _ _ (hS.of_reaches hchecked) hlasts, List.map_cons]

end Stopwatch.Session
