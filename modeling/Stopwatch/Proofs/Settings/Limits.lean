import Stopwatch.Proofs.Benchmark.Laps
import Stopwatch.Proofs.Settings.Acceptance
import Stopwatch.Proofs.Workload.Limits

/-!
# Limits of accepted settings

Settings are checked against the limits of the built-in workloads, and a benchmark checks the number
of iterations against the limit of its workload once more. `refused_iff_of_load` says when the
second check refuses what the first one has let pass. A number of iterations that is given passes
both. One that is left to the workload is never looked at by the first check, and a prime scan that
starts too close to the greatest number refuses it (`refused_of_great_start`).
-/

namespace Stopwatch

/-! ## The default numbers of iterations -/

namespace Workload

/-- The default number of iterations is too much for no workload but a prime scan near the greatest
number. -/
theorem limit_lt_defaultIterations_iff {start : Int64} {printing : Bool} {w : Workload}
    (hw : w ∈ [fibonacci, primeCount, primeScan start printing, sieve]) :
    w.limit < w.defaultIterations ↔ w.name = "prime-scan" ∧
      0x7fffffffffffffff - 100000 < start.toInt := by
  simp only [List.mem_cons, List.not_mem_nil, or_false] at hw
  rcases hw with rfl | rfl | rfl | rfl
  · exact iff_of_false (by decide) fun h => absurd h.1 (by decide)
  · exact iff_of_false (by decide) fun h => absurd h.1 (by decide)
  · have hbound := toNat_bound_primeScan start printing
    have hdefault : (primeScan start printing).defaultIterations = 100000 := rfl
    have hname : (primeScan start printing).name = "prime-scan" := rfl
    have hmax : ¬ maxIterations < 100000 := by decide
    have hnat : (100000 : UInt64).toNat = 100000 := rfl
    rw [limit_lt_iff, hdefault, or_iff_left hmax, UInt64.lt_iff_toNat_lt, hnat, and_iff_right hname]
    omega
  · exact iff_of_false (by decide) fun h => absurd h.1 (by decide)

end Workload

/-- The built-in workloads differ by the options in where a prime scan starts and whether it prints.
-/
theorem Registry.get_builtin_eq_ok_iff {o : WorkloadOptions} {name : Text} {w : Workload} :
    (builtin o).get name = .ok w ↔ name = w.name ∧
      w ∈ [Workload.fibonacci, Workload.primeCount,
        Workload.primeScan o.start o.printing, Workload.sieve] := by
  constructor
  · intro h
    obtain ⟨build, hmem, rfl⟩ := exists_mem_of_get h
    simp only [builtin, List.mem_cons, Prod.mk.injEq, List.not_mem_nil, or_false] at hmem ⊢
    rcases hmem with ⟨rfl, rfl⟩ | ⟨rfl, rfl⟩ | ⟨rfl, rfl⟩ | ⟨rfl, rfl⟩ <;> simp <;> rfl
  · rintro ⟨rfl, hw⟩
    simp only [List.mem_cons, List.not_mem_nil, or_false] at hw
    rcases hw with rfl | rfl | rfl | rfl <;> rfl

/-- The limit of a built-in workload does not depend on what it prints. -/
theorem Registry.exists_get_of_printing {start : Int64} {printing : Bool}
    {name : Text} {w : Workload} (h : (builtin ⟨start, printing⟩).get name = .ok w) :
    ∃ w', (builtin { start }).get name = .ok w' ∧ w'.limit = w.limit := by
  obtain ⟨rfl, hw⟩ := get_builtin_eq_ok_iff.mp h
  simp only [List.mem_cons, List.not_mem_nil, or_false] at hw
  rcases hw with rfl | rfl | rfl | rfl <;> exact ⟨_, rfl, rfl⟩

/-! ## The two checks -/

/-- The fault of a refused benchmark is of a kind of its own, which the end of a session is not. -/
theorem Benchmark.exists_validation_iff {σ : Type} (S : Surroundings σ)
    (schedule : Schedule) (index : Int) (w : Workload) (st : σ) :
    (∃ field message, (run S schedule index w st).fault = some (.validation field message)) ↔
      Refused schedule w := by
  rcases refusal?_cases schedule w with ⟨hr, field, message, h⟩ | ⟨hr, h⟩
  · exact iff_of_true ⟨field, message, by rw [run_of_refusal h]⟩ hr
  · refine iff_of_false ?_ hr
    rintro ⟨field, message, hfault⟩
    rw [run, h] at hfault
    simp at hfault

namespace Settings

variable {program : Text} {args : List Text} {env : Environment}
    {options : WorkloadOptions} {s : Settings}

/-- A selected workload has only its own default number of iterations to refuse. -/
theorem Accepted.refused_iff {workloads : List Text} (h : s.Accepted workloads)
    {printing : Bool} {name : Text} {w : Workload} (hname : name ∈ s.selected workloads)
    (hget : (Registry.builtin ⟨s.start, printing⟩).get name = .ok w) :
    Benchmark.Refused ⟨s.runs.toInt, s.iterations⟩ w ↔ s.iterations = 0 ∧
      w.limit < w.defaultIterations := by
  have hruns : ¬ s.runs.toInt < 1 := Int.not_lt.mpr (Int64.le_iff_toInt_le.mp h.runs)
  rw [Benchmark.Refused, or_iff_right hruns, Benchmark.iterationsOf]
  by_cases hzero : s.iterations = 0
  · simp [hzero]
  · obtain ⟨w', hget', hlimit⟩ := Registry.exists_get_of_printing hget
    have hle : s.iterations ≤ w.limit := hlimit ▸ (h.iterations hzero).2 name hname w' hget'
    simp [hzero, hle]

/-- **A benchmark refuses accepted settings only for a default.** The selected workloads can all be
built, and one of them refuses to be timed exactly if the number of iterations is left to it, it is
the prime scan, and its default number of steps would lead beyond the greatest number. -/
theorem refused_iff_of_load (hload : load program args env (Registry.builtin options).list = .ok s)
    (hcompletion : s.completion = ∅) (printing : Bool) :
    ∃ ws, (Registry.builtin ⟨s.start, printing⟩).toRun s.workload = .ok ws ∧
      ∀ w ∈ ws, ∀ (σ : Type) (S : Surroundings σ) (index : Int) (st : σ),
        (∃ field message, (Benchmark.run S ⟨s.runs.toInt, s.iterations⟩ index w st).fault =
            some (.validation field message)) ↔
          s.iterations = 0 ∧ w.name = "prime-scan" ∧
            0x7fffffffffffffff - 100000 < s.start.toInt := by
  have haccepted := accepted_of_load hload hcompletion
  obtain ⟨ws, hws⟩ :=
    Registry.exists_toRun (r := Registry.builtin ⟨s.start, printing⟩) haccepted.workload
  refine ⟨ws, hws, ?_⟩
  intro w hw σ S index st
  obtain ⟨name, hname, hget⟩ := Registry.exists_get_of_mem_toRun hws hw
  rw [Benchmark.exists_validation_iff, haccepted.refused_iff hname hget,
    Workload.limit_lt_defaultIterations_iff (Registry.get_builtin_eq_ok_iff.mp hget).2]

/-- The last start that leaves room for the default number of steps. -/
theorem not_refused_of_room :
    ∃ s, load "microbench" ["-w", "all", "--start", "9223372036854675807"] ⟨[]⟩
        (Registry.builtin {}).list = .ok s ∧
      s.completion = ∅ ∧
      ∃ ws, (Registry.builtin ⟨s.start, false⟩).toRun s.workload = .ok ws ∧
        ∀ w ∈ ws, ∀ (σ : Type) (S : Surroundings σ) (index : Int) (st : σ),
          ¬ ∃ field message, (Benchmark.run S ⟨s.runs.toInt, s.iterations⟩ index w st).fault =
            some (.validation field message) := by
  let s : Settings := { workload := "all", start := 9223372036854675807 }
  have hload : load "microbench" ["-w", "all", "--start", "9223372036854675807"] ⟨[]⟩
    (Registry.builtin {}).list = .ok s := rfl
  obtain ⟨ws, hws, hrefused⟩ := refused_iff_of_load hload rfl false
  refine ⟨s, hload, rfl, ws, hws, ?_⟩
  intro w hw σ S index st h
  obtain ⟨-, -, hstart⟩ := (hrefused w hw σ S index st).mp h
  exact absurd hstart (by decide)

/-- A start that is not accepted with a hundred iterations is accepted with the default, which is
more, and the workload refuses it. -/
theorem refused_of_great_start :
    (∃ refusal, load "microbench" ["--start", "9223372036854775800", "-k", "100"] ⟨[]⟩
      (Registry.builtin {}).list = .error refusal) ∧
    ∃ s, load "microbench" ["--start", "9223372036854775800"] ⟨[]⟩
        (Registry.builtin {}).list = .ok s ∧
      s.completion = ∅ ∧
      ∃ w, (Registry.builtin ⟨s.start, false⟩).toRun s.workload = .ok [w] ∧
        ∀ (σ : Type) (S : Surroundings σ) (index : Int) (st : σ),
          (Benchmark.run S ⟨s.runs.toInt, s.iterations⟩ index w st).fault =
            some (.validation "iterations" "100000 exceeds the prime-scan limit of 7") := by
  refine ⟨⟨_, rfl⟩, { start := 9223372036854775800 },
    rfl, rfl, Workload.primeScan 9223372036854775800 false, rfl, ?_⟩
  intro σ S index st
  have hrefusal : Benchmark.refusal? ⟨100, 0⟩ (Workload.primeScan 9223372036854775800 false) =
      some (.validation "iterations" "100000 exceeds the prime-scan limit of 7") := rfl
  exact congrArg Benchmark.Ended.fault (Benchmark.run_of_refusal hrefusal)

end Settings

end Stopwatch
