import Mathlib.Tactic.SplitIfs
import Stopwatch.Benchmark

/-!
# The laps of a benchmark

A benchmark makes its runs in a loop that looks for the session's end, reads the clock, calls the
workload, reads the clock again and tells others. `Laps` says in which states this happens, and
`run_laps` that everything a benchmark reports is told by its laps: the samples, the outcome, the
summary, the notices about runs, and why it stopped.

Nothing is assumed about the surroundings, so the laps are those of every clock, and the session may
end in any state or in none. The list of the samples is taken to fit into memory. A schedule with
more runs than that (`Schedule.isPossible` is false of it) ends the program where the list is made,
after the refusals and before the first lap, so there is no benchmark of which anything could be
said.
-/

namespace Stopwatch.Benchmark

variable {σ : Type} {S : Surroundings σ} {schedule : Schedule} {w : Workload}
    {index : Int} {s last : σ}

/-! ## Laps -/

/-- One timed call. -/
structure Lap where
  /-- What the clock said before the call. -/
  start : Moment
  /-- What the call gave. -/
  reply : Reply
  /-- The time that went by between the call's beginning and its end. -/
  sample : Duration

/-- Laps that are made one after the other: each begins in a state in which the session has not
ended, and makes one call between two readings of the clock. The first one makes the call `i` of the
plan. -/
inductive Laps (S : Surroundings σ) (plan : Plan) : Nat → σ → List Lap → σ → Prop where
  | nil {i : Nat} {s : σ} : Laps S plan i s [] s
  | cons {i : Nat} {s checked begun called timed last : σ} {start : Moment}
      {reply : Reply} {sample : Duration} {laps : List Lap} (check : S.check s = (none, checked))
      (clock : S.clock checked = (start, begun))
      (call : S.call plan i begun = (reply, called))
      (elapsed : S.elapsed start called = (sample, timed))
      (rest : Laps S plan (i + 1) timed laps last) :
      Laps S plan i s (⟨start, reply, sample⟩ :: laps) last

/-- The runs among notices, with the workload that each is told of, in order. -/
def observed (notices : List (Timed Notice)) : List (Text × Duration) :=
  notices.filterMap fun n =>
    match n.value with
    | .run workload sample => some (workload, sample)
    | _ => none

theorem observed_append (a b : List (Timed Notice)) :
    observed (a ++ b) = observed a ++ observed b :=
  List.filterMap_append ..

/-- After a run it is told once, with its sample. -/
theorem observed_runNotices (time : Moment) (u : Progress.Update) (reply : Reply) (ended : Bool) :
    observed (runNotices time u reply ended) = [(u.workload, u.sample)] := by
  unfold runNotices
  rw [observed_append, observed_append]
  cases ended <;> by_cases h : reply.printed.isEmpty <;> simp [h, observed]

/-! ## The loop -/

/-- The laps account for the runs: for their samples, for the outcome, for the runs told to others,
and for how the runs ended, which is either after all that were `left` or by the session's end. -/
structure Accounts (S : Surroundings σ) (plan : Plan) (name : Text) (left i : Nat)
    (s : σ) (laps : List Lap) (last : σ) (runs : Runs σ) : Prop where
  made : Laps S plan i s laps last
  samples : runs.samples = laps.map (·.sample)
  outcome : runs.outcome = laps.getLast?.map (·.reply.outcome)
  observed : observed runs.notices = laps.map fun l => (name, l.sample)
  ended : runs.fault = none ∧ laps.length = left ∧ runs.state = last ∨
    ∃ cause, runs.fault = some cause ∧ laps.length < left ∧ S.check last = (some cause, runs.state)

theorem timeRuns_accounts (S : Surroundings σ) (plan : Plan) (index : Int) (name : Text)
    (runs : Int) (left i : Nat) (s : σ) :
    ∃ laps last, Accounts S plan name left i s laps last
      (timeRuns S plan index name runs left i s) := by
  induction left generalizing i s with
  | zero => exact ⟨[], s, .nil, rfl, rfl, rfl, .inl ⟨rfl, rfl, rfl⟩⟩
  | succ left ih =>
    rw [timeRuns]
    rcases hcheck : S.check s with ⟨_ | cause, checked⟩
    · obtain ⟨start, begun, hclock⟩ : ∃ start begun, S.clock checked = (start, begun) := ⟨_, _, rfl⟩
      obtain ⟨reply, called, hcall⟩ : ∃ reply called,
        S.call plan i begun = (reply, called) := ⟨_, _, rfl⟩
      obtain ⟨sample, timed, helapsed⟩ : ∃ sample timed,
        S.elapsed start called = (sample, timed) := ⟨_, _, rfl⟩
      obtain ⟨laps, last, h⟩ := ih (i + 1) timed
      have htime : S.time plan i checked = ((reply, sample), timed) := by
        simp only [Surroundings.time, hclock, hcall, helapsed]
      simp only [htime]
      -- The lap at hand goes before those of the rest of the loop.
      refine ⟨⟨start, reply, sample⟩ :: laps, last,
        .cons hcheck hclock hcall helapsed h.made, ?_, ?_, ?_, ?_⟩
      · rw [h.samples]
        rfl
      · rw [h.outcome, List.getLast?_cons]
        cases laps.getLast? <;> rfl
      · rw [observed_append, observed_runNotices, h.observed]
        rfl
      · rcases h.ended with ⟨hf, hl, hs⟩ | ⟨cause, hf, hl, hs⟩
        · exact .inl ⟨hf, by rw [List.length_cons, hl], hs⟩
        · exact .inr ⟨cause, hf, by rw [List.length_cons]; omega, hs⟩
    · exact ⟨[], s, .nil, rfl, rfl, rfl, .inr ⟨cause, rfl, Nat.succ_pos left, hcheck⟩⟩

/-! ## The whole benchmark -/

/-- The schedule asks for too few runs, or for more iterations than the workload may be run with. -/
def Refused (schedule : Schedule) (w : Workload) : Prop :=
  schedule.runs < 1 ∨ w.limit < iterationsOf schedule w

/-- A refusal names the field that is wrong, and there is one exactly if the schedule is refused. -/
theorem refusal?_cases (schedule : Schedule) (w : Workload) :
    Refused schedule w ∧ (∃ field message, refusal? schedule w = some (.validation field message)) ∨
      ¬ Refused schedule w ∧ refusal? schedule w = none := by
  unfold refusal? Refused
  dsimp only
  split_ifs with h1 h2
  · exact .inl ⟨.inl h1, _, _, rfl⟩
  · exact .inl ⟨.inr h2, _, _, rfl⟩
  · exact .inr ⟨fun h => h.elim h1 h2, rfl⟩

/-- The laps of a benchmark that was not refused account for everything it reports. They begin once
the clock has been read for the time of the whole benchmark. -/
structure Ran (S : Surroundings σ) (schedule : Schedule) (w : Workload) (s : σ)
    (laps : List Lap) (last : σ) (ended : Ended σ) : Prop where
  /-- The calls are those of the workload with the number of iterations in force. -/
  made : Laps S (w.plan (iterationsOf schedule w)) 0 (S.clock s).2 laps last
  iterations : ended.report.iterations = iterationsOf schedule w
  samples : ended.report.samples = laps.map (·.sample)
  length_le : (laps.length : Int) ≤ schedule.runs
  /-- The outcome is that of the last lap. -/
  outcome : ended.report.outcome = (laps.getLast?.map (·.reply.outcome)).getD {}
  observed : observed ended.notices = laps.map fun l => (w.name, l.sample)
  summary : ended.report.summary = Summary.ofSamples
    (Summary.fromDurations ended.report.samples Duration.second)
  summary_n : ended.report.summary.n = laps.length
  /-- Either all laps were made, or the session had ended when the next one was to begin. -/
  ended : ended.fault = none ∧ (laps.length : Int) = schedule.runs ∧
      ended.state = (S.elapsed (S.clock s).1 last).2 ∨
    ∃ cause stopped, ended.fault = some (.benchmark w.name cause) ∧
        (laps.length : Int) < schedule.runs ∧
      S.check last = (some cause, stopped) ∧ ended.state = (S.elapsed (S.clock s).1 stopped).2

theorem observed_reportNotices (report : Report) (fault : Option Fault) (time : Moment) :
    observed ((reportNotices report ++ [Notice.entry (endEntry report fault)]).map
      fun n => ⟨time, n⟩) = [] := by
  unfold reportNotices
  split_ifs <;> rfl

theorem run_of_refusal {fault : Fault} (h : refusal? schedule w = some fault) :
    run S schedule index w s =
      { report := { name := w.name }, fault := some fault, state := s } := by
  rw [run, h]

theorem run_ran (S : Surroundings σ) (index : Int) (s : σ) (h : refusal? schedule w = none)
    (hr : ¬ Refused schedule w) :
    ∃ laps last, Ran S schedule w s laps last (run S schedule index w s) := by
  obtain ⟨begun, opened, hclock⟩ : ∃ begun opened, S.clock s = (begun, opened) := ⟨_, _, rfl⟩
  have hruns : 1 ≤ schedule.runs := Int.not_lt.mp fun hlt => hr (.inl hlt)
  obtain ⟨laps, last, ha⟩ :=
    timeRuns_accounts S (w.plan (iterationsOf schedule w)) index w.name schedule.runs
      schedule.runs.toNat 0 opened
  refine ⟨laps, last, ?_⟩
  rw [run, h]
  simp only [hclock]
  generalize timeRuns S (w.plan (iterationsOf schedule w)) index w.name schedule.runs
    schedule.runs.toNat 0 opened = runs at ha
  have hsum : Summary.ofDurations runs.samples =
      Summary.ofSamples (Summary.fromDurations runs.samples Duration.second) := rfl
  have hn : (Summary.ofDurations runs.samples).n = laps.length := by
    rw [Summary.ofDurations, Summary.n_ofSamples, Summary.fromDurations, List.length_map,
      ha.samples, List.length_map]
  refine
    { made := hclock ▸ ha.made, iterations := rfl, samples := ha.samples,
      length_le := ?_, outcome := ?_,
      observed := ?_, summary := hsum, summary_n := hn, ended := ?_ }
  · rcases ha.ended with ⟨-, hl, -⟩ | ⟨cause, -, hl, -⟩ <;> omega
  · rw [ha.outcome]
  · rw [observed_append, observed_append, observed_reportNotices, ha.observed]
    simp [observed]
  · rw [hclock]
    rcases ha.ended with ⟨hf, hl, hs⟩ | ⟨cause, hf, hl, hs⟩
    · exact .inl ⟨by rw [hf]; rfl, by omega, by rw [hs]⟩
    · exact .inr ⟨cause, runs.state, by rw [hf]; rfl, by omega, hs, rfl⟩

/-- Whether a benchmark has a fault shows in the number of its laps. -/
theorem Ran.fault_eq_none_iff {laps : List Lap} {e : Ended σ} (h : Ran S schedule w s laps last e) :
    e.fault = none ↔ (e.report.samples.length : Int) = schedule.runs := by
  rw [h.samples, List.length_map]
  rcases h.ended with ⟨hf, hl, -⟩ | ⟨cause, stopped, hf, hl, -⟩
  · exact ⟨fun _ => hl, fun _ => hf⟩
  · rw [hf]
    exact ⟨fun h => absurd h (by simp), fun h => by omega⟩

/-- **A benchmark reports its laps.** It is refused exactly if the schedule does not fit the
workload, and then nothing around it is touched and nothing is told. Otherwise its laps account for
the samples, the outcome, the runs told to others and the summary, and it has no fault exactly if it
has a sample for every planned run. -/
theorem run_laps (S : Surroundings σ) (schedule : Schedule) (index : Int) (w : Workload) (s : σ) :
    ((∃ field message, (run S schedule index w s).fault = some (.validation field message)) ↔
        Refused schedule w) ∧
      (Refused schedule w → (run S schedule index w s).state = s ∧
        (run S schedule index w s).notices = []) ∧
      (¬ Refused schedule w → ∃ laps last, Ran S schedule w s laps last (run S schedule index w s) ∧
        ((run S schedule index w s).fault = none ↔
          ((run S schedule index w s).report.samples.length : Int) = schedule.runs)) := by
  rcases refusal?_cases schedule w with ⟨hr, field, message, h⟩ | ⟨hr, h⟩
  · rw [run_of_refusal h]
    exact ⟨⟨fun _ => hr, fun _ => ⟨field, message, rfl⟩⟩,
      fun _ => ⟨rfl, rfl⟩, fun hn => absurd hr hn⟩
  · obtain ⟨laps, last, hran⟩ := run_ran S index s h hr
    refine ⟨⟨?_, fun hn => absurd hn hr⟩, fun hn => absurd hn hr,
      fun _ => ⟨laps, last, hran, hran.fault_eq_none_iff⟩⟩
    rintro ⟨field, message, hf⟩
    rcases hran.ended with ⟨hnone, -⟩ | ⟨cause, stopped, hsome, -⟩
    · rw [hnone] at hf
      exact absurd hf (by simp)
    · rw [hsome] at hf
      exact absurd hf (by simp)

end Stopwatch.Benchmark
