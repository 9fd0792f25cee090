import Stopwatch.Journal
import Stopwatch.Memory
import Stopwatch.Moment
import Stopwatch.Progress
import Stopwatch.Room
import Stopwatch.Summary
import Stopwatch.Workload

/-!
# Benchmarks

A benchmark times the runs of one workload. Between runs it looks whether the session has ended, and
then stops with the samples it has; a run that has begun is always completed.

What the benchmark finds around it (the clock, the session's end, the memory counters, and how the
workload's calls come out) is a value of `Surroundings`, over any type of states. So a statement
about `Benchmark.run` holds for every clock and for a session that ends at any moment.
-/

namespace Stopwatch

/-- What a benchmark finds around it. -/
structure Surroundings (σ : Type) where
  /-- The time of day. -/
  now : σ → Moment
  /-- Looks whether the session has ended, and why. Time may pass. -/
  check : σ → Option Fault × σ
  /-- Reads the clock. -/
  clock : σ → Moment × σ
  /-- A call begins, which is the given one of its plan. -/
  begin : Plan → Nat → σ → σ
  /-- The call that has begun comes to its end. -/
  finish : Plan → Nat → σ → Reply × σ
  /-- Reads how much time has gone by on the clock since a moment. -/
  elapsed : Moment → σ → Duration × σ
  /-- The memory counters. -/
  memory : σ → Memory.Reading
  /-- What is noted before a workload is timed. -/
  opening : Workload → List Journal.Entry := fun _ => []

/-- Makes one call: it begins, and comes to its end. -/
def Surroundings.call {σ : Type} (S : Surroundings σ) (plan : Plan) (i : Nat) (s : σ) : Reply × σ :=
  S.finish plan i (S.begin plan i s)

/-- Makes one call between two readings of the clock. -/
def Surroundings.time {σ : Type} (S : Surroundings σ) (plan : Plan) (i : Nat) (s : σ) :
    (Reply × Duration) × σ :=
  let (start, s) := S.clock s
  let (reply, s) := S.call plan i s
  let (sample, s) := S.elapsed start s
  ((reply, sample), s)

/-- How a workload is timed. -/
structure Schedule where
  /-- The number of timed runs. -/
  runs : Int
  /-- The number of iterations in a run; zero leaves it to the workload. -/
  iterations : UInt64 := 0
deriving Inhabited

/-- True if there can be a list of the samples. A sample has eight bytes. -/
def Schedule.isPossible (s : Schedule) : Bool := Room.holds 8 (max s.runs 0)

/-- The measurements of one benchmark. -/
structure Report where
  name : Text
  /-- The number of planned runs. -/
  runs : Int := 0
  iterations : UInt64 := 0
  /-- How long each completed run took, in order. -/
  samples : List Duration := []
  /-- What the last completed run computed. -/
  outcome : Outcome := {}
  /-- The samples in seconds. -/
  summary : Summary := {}
  memory : Memory.Change := {}
  /-- The time of the whole benchmark. -/
  elapsed : Duration := 0
deriving Inhabited

/-- Something a benchmark tells others. -/
inductive Notice where
  /-- An entry for the journal. -/
  | entry (e : Journal.Entry)
  /-- A completed run. -/
  | run (workload : Text) (sample : Duration)
  /-- The summary of a benchmark. -/
  | summary (workload : Text) (s : Summary)
  /-- The primes that the last run found. -/
  | primes (workload : Text) (count : Int)
  /-- Progress, for a display. -/
  | update (u : Progress.Update)
  /-- Primes printed by a run. -/
  | printed (primes : List Int64)
deriving Inhabited

/-- A notice and when it was given. -/
structure Timed (α : Type) where
  time : Moment
  value : α
deriving Inhabited

/-- The runs of a benchmark. -/
structure Runs (σ : Type) where
  samples : List Duration := []
  /-- What the last run computed; none if there was no run. -/
  outcome : Option Outcome := none
  /-- Why the benchmark stopped before all runs were completed. -/
  fault : Option Fault := none
  notices : List (Timed Notice) := []
  /-- What was found around it at the end. -/
  state : σ

namespace Benchmark

/-- What is told after a run. The update is not sent any more once the session has ended. -/
def runNotices (time : Moment) (u : Progress.Update) (reply : Reply) (ended : Bool) :
    List (Timed Notice) :=
  (if reply.printed.isEmpty then [] else [⟨time, .printed reply.printed⟩]) ++
    [⟨time, .run u.workload u.sample⟩] ++ if ended then [] else [⟨time, .update u⟩]

/-- Makes the runs that are left after the first `done`. -/
def timeRuns {σ : Type} (S : Surroundings σ) (plan : Plan) (index : Int)
    (name : Text) (runs : Int) :
    Nat → Nat → σ → Runs σ
  | 0, _, s => { state := s }
  | left + 1, done, s =>
    match S.check s with
    | (some fault, s) => { fault := some fault, state := s }
    | (none, s) =>
      let ((reply, sample), s) := S.time plan done s
      let ended := (S.check s).1.isSome
      let update := Progress.Update.ofRun index name (done + 1) runs sample
      let rest := timeRuns S plan index name runs left (done + 1) s
      { rest with
        samples := sample :: rest.samples
        outcome := some (rest.outcome.getD reply.outcome)
        notices := runNotices (S.now s) update reply ended ++ rest.notices }

/-- The number of iterations that a schedule has a workload do. -/
def iterationsOf (schedule : Schedule) (w : Workload) : UInt64 :=
  if schedule.iterations == 0 then w.defaultIterations else schedule.iterations

/-- Why a workload cannot be timed by a schedule. -/
def refusal? (schedule : Schedule) (w : Workload) : Option Fault :=
  if schedule.runs < 1 then some (.validation "runs" "must be at least 1")
  else
    let k := iterationsOf schedule w
    if w.limit < k then
      some (.validation "iterations" (Text.ofNat k.toNat ++ " exceeds the " ++
        w.name ++ " limit of " ++ Text.ofNat w.limit.toNat))
    else none

/-- True unless the samples of a workload that would be timed need more room than there is. -/
def isPossible (schedule : Schedule) (w : Workload) : Bool :=
  (refusal? schedule w).isSome || schedule.isPossible

/-- The entry at the beginning of a benchmark. -/
def startEntry (name : Text) (runs : Int) (k : UInt64) : Journal.Entry :=
  .debug "benchmark starting" [⟨"workload", .text name⟩, ⟨"runs", .int runs⟩,
    ⟨"iterations", .int k.toNat⟩]

/-- The entry at the end of a benchmark. -/
def endEntry (report : Report) (fault : Option Fault) : Journal.Entry :=
  if fault.isSome then
    .debug "benchmark interrupted"
      [⟨"workload", .text report.name⟩, ⟨"completed_runs", .int report.samples.length⟩]
  else
    .debug "benchmark finished"
      [⟨"workload", .text report.name⟩, ⟨"mean_seconds", .float report.summary.mean⟩,
        ⟨"elapsed", .duration report.elapsed⟩]

/-- What is told about a report as a whole. -/
def reportNotices (report : Report) : List Notice :=
  (if 0 < report.summary.n then [.summary report.name report.summary] else []) ++
    if 0 < report.outcome.primes then [.primes report.name report.outcome.primes] else []

/-- What became of a benchmark. -/
structure Ended (σ : Type) where
  report : Report
  fault : Option Fault := none
  notices : List (Timed Notice) := []
  state : σ

/-- Times a workload. `index` is its place in the session. -/
def run {σ : Type} (S : Surroundings σ) (schedule : Schedule) (index : Int) (w : Workload) (s : σ) :
    Ended σ :=
  match refusal? schedule w with
  | some fault => { report := { name := w.name }, fault := some fault, state := s }
  | none =>
    let k := iterationsOf schedule w
    let started := S.now s
    let (begun, s) := S.clock s
    let before := S.memory s
    let runs := timeRuns S (w.plan k) index w.name schedule.runs schedule.runs.toNat 0 s
    let (elapsed, state) := S.elapsed begun runs.state
    let report : Report :=
      { name := w.name
        runs := schedule.runs
        iterations := k
        samples := runs.samples
        outcome := runs.outcome.getD {}
        summary := Summary.ofDurations runs.samples
        memory := before.change (S.memory runs.state)
        elapsed }
    let told := reportNotices report ++ [.entry (endEntry report runs.fault)]
    { report
      fault := runs.fault.map (Fault.benchmark w.name)
      notices :=
        [⟨started, .entry (startEntry w.name schedule.runs k)⟩] ++ runs.notices ++
          told.map fun n => ⟨S.now state, n⟩
      state }

end Benchmark

/-- A benchmark that has ended. -/
structure Result where
  workload : Option Workload := none
  report : Report
  /-- Why it did not complete all runs. -/
  fault : Option Fault := none
deriving Inhabited

namespace Result

/-- The name that the result is shown under. -/
def name (r : Result) : Text := r.report.name

/-- True if all runs were completed. -/
def succeeded (r : Result) : Bool := r.fault.isNone

end Result

end Stopwatch
