import Stopwatch.Exposition
import Stopwatch.Proofs.Benchmark.Laps
import Stopwatch.Proofs.Exposition.Labels

/-!
# The runs that a recorder counts

A recorder keeps one series for each workload, sorted by name. `runCount_ofNotices` says that the
number of runs in the series of a name is the number of runs that were told under it, whatever else
was told and in whatever order.

It takes what it is told only under labels that are UTF-8. What a benchmark tells it is told under
the name of its workload (`label_run`).
-/

namespace Stopwatch

/-! ## One series -/

namespace RunSeries

theorem placeOf_lt (x : Float) : placeOf x < 21 := by
  have hlength : bucketBounds.length = 20 := by simp [bucketBounds]
  have := (List.takeWhile_prefix (fun b => decide (b < x)) (l := bucketBounds)).length_le
  unfold placeOf
  omega

theorem length_counts_observe (s : RunSeries) (d : Duration) :
    (s.observe d).counts.length = s.counts.length :=
  List.length_modify ..

theorem foldl_add_succ (l : List Nat) (n : Nat) :
    l.foldl (· + ·) (n + 1) = l.foldl (· + ·) n + 1 := by
  induction l generalizing n with
  | nil => rfl
  | cons x l ih => rw [List.foldl_cons, List.foldl_cons, Nat.add_right_comm, ih]

theorem foldl_add_modify {l : List Nat} {i : Nat} (h : i < l.length) (n : Nat) :
    (l.modify i (· + 1)).foldl (· + ·) n = l.foldl (· + ·) n + 1 := by
  induction l generalizing i n with
  | nil => simp at h
  | cons x l ih =>
    cases i with
    | zero =>
      rw [List.modify_zero_cons, List.foldl_cons, List.foldl_cons]
      exact foldl_add_succ l (n + x)
    | succ i => exact ih (Nat.lt_of_succ_lt_succ h) (n + x)

/-- A run that is observed counts once, however long it took. -/
theorem count_observe {s : RunSeries} (h : s.counts.length = 21) (d : Duration) :
    (s.observe d).count = s.count + 1 := by
  exact foldl_add_modify (by rw [h]; exact placeOf_lt _) 0

end RunSeries

/-! ## The recorder -/

namespace Recorder

/-- How many runs of a workload were told. -/
def runCount (r : Recorder) (name : Text) : Nat := ((r.runs.lookup name).map RunSeries.count).getD 0

/-- The series of runs are sorted, and each has all its buckets. -/
structure Regular (r : Recorder) : Prop where
  sorted : r.runs.Sorted
  buckets : ∀ p ∈ r.runs, p.2.counts.length = 21

theorem Regular.notice {r : Recorder} (h : r.Regular) (n : Notice) : (r.notice n).Regular := by
  cases n with
  | run workload d =>
    refine ⟨h.sorted.alter _ _ _, fun p hp => ?_⟩
    rcases Labelled.mem_alter hp with ⟨-, hp | ⟨s, hs, hp⟩⟩ | hp
    · rw [hp, RunSeries.length_counts_observe]
      rfl
    · rw [hp, RunSeries.length_counts_observe]
      exact h.buckets _ hs
    · exact h.buckets p hp
  | _ => exact ⟨h.sorted, h.buckets⟩

/-- The workload whose run a notice tells of. -/
def ran? : Notice → Option Text
  | .run workload _ => some workload
  | _ => none

theorem Regular.runCount_notice {r : Recorder} (h : r.Regular) (n : Notice) (name : Text) :
    (r.notice n).runCount name = r.runCount name + if ran? n = some name then 1 else 0 := by
  cases n with
  | run workload d =>
    simp only [Recorder.notice, runCount, ran?, Option.some.injEq]
    rw [Labelled.lookup_alter _ _ _ _ h.sorted]
    by_cases hname : name = workload
    · subst hname
      have hbuckets : ((r.runs.lookup name).getD {}).counts.length = 21 := by
        cases hs : r.runs.lookup name with
        | none => rfl
        | some s =>
          obtain ⟨before, after, heq, -⟩ := List.lookup_eq_some_iff.mp hs
          exact h.buckets (name, s) (by simp [heq])
      simp only [if_true, Option.map_some, Option.getD_some, RunSeries.count_observe hbuckets]
      cases r.runs.lookup name <;> rfl
    · simp [hname, Ne.symm hname]
  | _ => simp [Recorder.notice, runCount, ran?]

theorem Regular.runCount_notices {r : Recorder} (h : r.Regular)
    (ns : List (Timed Notice)) (name : Text) :
    (ns.foldl (fun r n => r.notice n.value) r).runCount name =
      r.runCount name + (Benchmark.observed ns).countP fun p => p.1 = name := by
  induction ns generalizing r with
  | nil => rfl
  | cons n ns ih =>
    rw [List.foldl_cons, ih (h.notice n.value), h.runCount_notice]
    obtain ⟨time, value⟩ := n
    cases value with
    | run workload d =>
      simp only [ran?, Benchmark.observed, List.filterMap_cons, List.countP_cons, Option.some.injEq,
        decide_eq_true_eq]
      omega
    | _ => simp [ran?, Benchmark.observed]

/-- **A recorder counts the runs that were told under each name.** -/
theorem runCount_ofNotices (ns : List (Timed Notice)) (name : Text) :
    (ofNotices ns).runCount name = (Benchmark.observed ns).countP fun p => p.1 = name := by
  have hempty : ({} : Recorder).Regular := ⟨List.Pairwise.nil, List.forall_mem_nil _⟩
  rw [ofNotices, hempty.runCount_notices]
  exact Nat.zero_add _

/-! ## What it takes -/

/-- The label under which a recorder keeps what it is told. -/
def label? : Notice → Option Text
  | .run workload _ => some workload
  | .summary workload _ => some workload
  | .primes workload _ => some workload
  | _ => none

theorem accepts_iff (n : Notice) : accepts n = true ↔ ∀ label ∈ label? n, label.isUtf8 = true := by
  cases n <;> simp [accepts, label?]

end Recorder

namespace Benchmark

variable {σ : Type}

/-- While the runs are made, nothing has another label than the workload's name, and without a run
nothing has one. -/
theorem label_timeRuns (S : Surroundings σ) (plan : Plan) (index : Int) (name : Text) (runs : Int)
    (left done : Nat) (s : σ) :
    ∀ n ∈ (timeRuns S plan index name runs left done s).notices, ∀ label ∈ Recorder.label? n.value,
      label = name ∧ (timeRuns S plan index name runs left done s).samples ≠ [] := by
  induction left generalizing done s with
  | zero => exact List.forall_mem_nil _
  | succ left ih =>
    rw [timeRuns]
    rcases S.check s with ⟨_ | cause, checked⟩
    · intro n hn label hlabel
      refine ⟨?_, List.cons_ne_nil _ _⟩
      rcases List.mem_append.mp hn with hn | hn
      · simp only [runNotices, List.mem_append, List.mem_ite_nil_left, List.mem_singleton] at hn
        rcases hn with (⟨-, rfl⟩ | rfl) | ⟨-, rfl⟩
        · exact absurd hlabel (by simp [Recorder.label?])
        · exact (Option.some.inj hlabel).symm
        · exact absurd hlabel (by simp [Recorder.label?])
      · exact (ih _ _ n hn label hlabel).1
    · exact List.forall_mem_nil _

/-- A benchmark tells a recorder nothing under another label than the workload's name, and nothing
at all if it made no run. -/
theorem label_run (S : Surroundings σ) (schedule : Schedule) (index : Int) (w : Workload) (s : σ) :
    ∀ n ∈ (run S schedule index w s).notices, ∀ label ∈ Recorder.label? n.value,
      label = w.name ∧ (run S schedule index w s).report.samples ≠ [] := by
  rw [run]
  rcases refusal? schedule w with _ | fault
  · obtain ⟨laps, last, ha⟩ :=
      timeRuns_accounts S (w.plan (iterationsOf schedule w)) index w.name schedule.runs
        schedule.runs.toNat 0 (S.clock s).2
    have hruns := label_timeRuns S (w.plan (iterationsOf schedule w)) index w.name schedule.runs
      schedule.runs.toNat 0 (S.clock s).2
    dsimp only
    generalize timeRuns S (w.plan (iterationsOf schedule w)) index w.name
      schedule.runs schedule.runs.toNat 0 (S.clock s).2 = runs at ha hruns ⊢
    intro n hn label hlabel
    simp only [List.mem_append, List.mem_singleton, List.mem_map] at hn
    rcases hn with (rfl | hn) | ⟨m, hm, rfl⟩
    · exact absurd hlabel (by simp [Recorder.label?])
    · exact hruns n hn label hlabel
    · -- Without a run there are neither a summary nor primes.
      have hempty : runs.samples = [] → (Summary.ofDurations runs.samples).n = 0 ∧
          runs.outcome = none := by
        intro h
        have hlaps : laps = [] := List.map_eq_nil_iff.mp (ha.samples.symm.trans h)
        rw [h, ha.outcome, hlaps]
        exact ⟨rfl, rfl⟩
      simp only [reportNotices, List.mem_append, List.mem_ite_nil_right, List.mem_singleton] at hm
      rcases hm with (⟨hn, rfl⟩ | ⟨hn, rfl⟩) | rfl
      · refine ⟨(Option.some.inj hlabel).symm, fun h => ?_⟩
        rw [(hempty h).1] at hn
        exact absurd hn (by decide)
      · refine ⟨(Option.some.inj hlabel).symm, fun h => ?_⟩
        rw [(hempty h).2] at hn
        exact absurd hn (by decide)
      · exact absurd hlabel (by simp [Recorder.label?])
  · exact List.forall_mem_nil _

end Benchmark

end Stopwatch
