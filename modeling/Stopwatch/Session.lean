import Stopwatch.Benchmark
import Stopwatch.Sorting.Blocks

/-!
# Sessions

A session times its workloads one after the other. Once it has ended, the workloads that are left
are not begun, and their results say why.

`Verdict.ofResults` judges the results: it ranks them, checks that workloads of one group agree on
the number of primes, and says what is to be announced and with which exit code the program ends.
How an announcement looks is left to whoever shows it.
-/

namespace Stopwatch

namespace Session

/-- What became of a session. -/
structure Ended (σ : Type) where
  /-- One result for each workload, in order. -/
  results : List Result := []
  notices : List (Timed Notice) := []
  state : σ

/-- Times workloads, the first of which has the given place in the session. -/
def runFrom {σ : Type} (S : Surroundings σ) (schedule : Schedule) :
    Int → List Workload → σ → Ended σ
  | _, [], s => { state := s }
  | index, w :: ws, s =>
    match S.check s with
    | (some fault, s) =>
      let rest := runFrom S schedule (index + 1) ws s
      { rest with
        results := ⟨some w, { name := w.name }, some (.benchmark w.name fault)⟩ :: rest.results }
    | (none, s) =>
      let opening := (S.opening w).map fun e => (⟨S.now s, .entry e⟩ : Timed Notice)
      let ended := Benchmark.run S schedule index w s
      let rest := runFrom S schedule (index + 1) ws ended.state
      { rest with
        results := ⟨some w, ended.report, ended.fault⟩ :: rest.results
        notices := opening ++ ended.notices ++ rest.notices }

/-- Times all workloads of a session. -/
def run {σ : Type} (S : Surroundings σ) (schedule : Schedule)
    (ws : List Workload) (s : σ) : Ended σ :=
  runFrom S schedule 0 ws s

/-- True if every workload of the session can be timed as far as room goes. A session that has ended
does not begin any. -/
def isPossible {σ : Type} (S : Surroundings σ) (schedule : Schedule)
    (ws : List Workload) (s : σ) : Bool :=
  (S.check s).1.isSome || ws.all (Benchmark.isPossible schedule)

/-- The progress updates among notices. -/
def updates (notices : List (Timed Notice)) : List Progress.Update :=
  notices.filterMap fun n =>
    match n.value with
    | .update u => some u
    | _ => none

/-- The journal entries among notices. -/
def entries (notices : List (Timed Notice)) : List (Timed Journal.Entry) :=
  notices.filterMap fun n =>
    match n.value with
    | .entry e => some ⟨n.time, e⟩
    | _ => none

/-- The primes printed among notices, in order. -/
def printed (notices : List (Timed Notice)) : List Int64 :=
  notices.flatMap fun n =>
    match n.value with
    | .printed ps => ps
    | _ => []

end Session

/-! ## Agreement -/

/-- Two results that report different numbers of primes where they must agree. -/
structure Disagreement where
  first : Result
  second : Result

namespace Disagreement

/-- What a result has to agree with others on: its group and its number of iterations. Results that
failed or whose workload has no group need not agree. -/
def key? (r : Result) : Option (Text × UInt64) :=
  match r.fault, r.workload with
  | none, some w => if w.group.isEmpty then none else some (w.group, r.report.iterations)
  | _, _ => none

/-- Looks through results, each compared with the first one seen under the same key. -/
def findFrom (seen : List ((Text × UInt64) × Result)) : List Result → Option Disagreement
  | [] => none
  | r :: rs =>
    match key? r with
    | none => findFrom seen rs
    | some key =>
      match seen.find? fun p => p.1 == key with
      | none => findFrom ((key, r) :: seen) rs
      | some (_, first) =>
        if first.report.outcome.primes != r.report.outcome.primes then some ⟨first, r⟩
        else findFrom seen rs

/-- The first disagreement among results. -/
def find? (results : List Result) : Option Disagreement := findFrom [] results

/-- The message about a disagreement. -/
def message (d : Disagreement) : Text :=
  d.first.name ++ " found " ++ Text.ofInt d.first.report.outcome.primes ++
    " primes but " ++ d.second.name ++ " found " ++
    Text.ofInt d.second.report.outcome.primes ++ " for K=" ++
    Text.ofNat d.second.report.iterations.toNat

end Disagreement

/-! ## Verdict -/

/-- Something to be shown at the end of a session. -/
inductive Announcement where
  /-- The results side by side. -/
  | table (results : List Result)
  /-- Nothing was completed. -/
  | nothingCompleted
  /-- Two workloads disagree. -/
  | disagreement (d : Disagreement)
  /-- A completed benchmark. -/
  | result (r : Result)
  /-- What went wrong first, if anything did. -/
  | failure (f : Option Fault)

/-- The judgement of a session's results. -/
structure Verdict where
  exit : ExitCode
  /-- The results as they are ranked. -/
  ranking : List Result
  announcements : List Announcement

namespace Verdict

/-- Successes come before failures, and a smaller mean before a greater one. -/
def before (a b : Result) : Bool :=
  if a.succeeded != b.succeeded then a.succeeded else a.report.summary.mean < b.report.summary.mean

/-- True if every mean is a number, so that `before` is a weak order. -/
def comparable (results : List Result) : Bool := results.all fun r => !r.report.summary.mean.isNaN

/-- The results ranked; results that rank alike keep their order. Comparable results have only one
such ranking. -/
def rank (results : List Result) : List Result :=
  if comparable results then results.mergeSort fun a b => !before b a
  else Sorting.byBlocks before results

/-- The fault of the first result that has one. -/
def firstFault (results : List Result) : Option Fault := results.findSome? fun r => r.fault

/-- Judges results. -/
def ofResults (results : List Result) : Verdict :=
  let ranking := rank results
  let table := if 1 < ranking.length then [Announcement.table ranking] else []
  let fault := firstFault ranking
  if !ranking.any Result.succeeded then
    { exit := Fault.exitCodeOf fault, ranking,
      announcements := table ++ [.nothingCompleted, .failure fault] }
  else
    match Disagreement.find? ranking with
    | some d => { exit := ExitCode.mismatch, ranking, announcements := table ++ [.disagreement d] }
    | none =>
      let shown := (ranking.filter Result.succeeded).map Announcement.result
      match fault with
      | some f =>
        { exit := f.exitCode, ranking, announcements := table ++ shown ++ [.failure (some f)] }
      | none => { exit := ExitCode.success, ranking, announcements := table ++ shown }

end Verdict

end Stopwatch
