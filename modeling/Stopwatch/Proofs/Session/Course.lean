import Stopwatch.Proofs.Exposition.Runs
import Stopwatch.Proofs.Session.Transport

/-!
# The course of a session

A session may end between any two things it does. `Course` says what can come of that, workload by
workload: first come workloads that are completed or refused, then at most one that is interrupted,
and those that are left are never begun. The course tells the results and also the deeds, that is,
everything the session did to what it found around it, in order. They are recorded by surroundings
that do the same as the given ones (`Surroundings.recorded`), so the results are those of the
session itself.

Everything about where a session is cut off (`run_cut`) is read off its course. All that is asked of
the surroundings is that a session that has ended stays so, for the same cause.
-/

namespace Stopwatch

variable {σ : Type} {S : Surroundings σ}

/-! ## Deeds -/

/-- Something that a session does. -/
inductive Deed where
  /-- It looks whether it has ended. -/
  | look (answer : Option Fault)
  /-- It reads the clock. -/
  | read
  /-- A call begins, which is the given one of its plan. -/
  | begin (plan : Plan) (i : Nat)
  /-- The call has come to its end. -/
  | finish (plan : Plan) (i : Nat)

namespace Deed

/-- The session saw that it has ended. -/
def SeesEnd : Deed → Prop
  | look answer => answer.isSome
  | _ => False

/-- The beginning or the end of a call. -/
def isCall : Deed → Bool
  | begin .. | finish .. => true
  | _ => false

/-- The first calls of a plan, one after the other. -/
def calls (plan : Plan) (n : Nat) : List Deed :=
  (List.range n).flatMap fun i => [begin plan i, finish plan i]

/-- The deeds of laps, the first of which makes the call `i`. -/
def laps (plan : Plan) (i n : Nat) : List Deed :=
  (List.range' i n).flatMap fun j => [look none, read, begin plan j, finish plan j, read]

theorem filter_laps (plan : Plan) (n : Nat) : (laps plan 0 n).filter isCall = calls plan n := by
  rw [laps, calls, List.range_eq_range', List.filter_flatMap]
  rfl

theorem not_seesEnd_of_mem_laps {plan : Plan} {i n : Nat} {d : Deed} (h : d ∈ laps plan i n) :
    ¬ d.SeesEnd := by
  obtain ⟨j, -, hd⟩ := List.mem_flatMap.mp h
  simp only [List.mem_cons, List.not_mem_nil, or_false] at hd
  rcases hd with rfl | rfl | rfl | rfl | rfl <;> simp [SeesEnd]

/-- Once the session has been seen to have ended, no call is made. -/
def Obedient (deeds : List Deed) : Prop := deeds.Pairwise fun a b => a.SeesEnd → b.isCall = false

theorem obedient_append {a b : List Deed} (ha : ∀ d ∈ a, ¬ d.SeesEnd) (hb : Obedient b) :
    Obedient (a ++ b) :=
  List.pairwise_append.mpr ⟨List.pairwise_of_forall_mem_list
    fun x hx _ _ h => absurd h (ha x hx), hb, fun x hx _ _ h => absurd h (ha x hx)⟩

theorem obedient_of_no_call {b : List Deed} (hb : ∀ d ∈ b, d.isCall = false) : Obedient b :=
  List.pairwise_of_forall_mem_list fun _ _ y hy _ => hb y hy

end Deed

/-- Surroundings that do the same and keep a record of it. The beginning and the end of a call are
recorded when they happen, each by itself. -/
def Surroundings.recorded (S : Surroundings σ) : Surroundings (σ × List Deed) where
  now p := S.now p.1
  check p := ((S.check p.1).1, (S.check p.1).2, p.2 ++ [.look (S.check p.1).1])
  clock p := ((S.clock p.1).1, (S.clock p.1).2, p.2 ++ [.read])
  begin plan i p := (S.begin plan i p.1, p.2 ++ [.begin plan i])
  finish plan i p := ((S.finish plan i p.1).1, (S.finish plan i p.1).2, p.2 ++ [.finish plan i])
  elapsed start p := ((S.elapsed start p.1).1, (S.elapsed start p.1).2, p.2 ++ [.read])
  memory p := S.memory p.1
  opening := S.opening

theorem Surroundings.recorded_hom (S : Surroundings σ) : S.recorded.Hom S Prod.fst where
  now _ := rfl
  check _ := rfl
  clock _ := rfl
  begin _ _ _ := rfl
  finish _ _ _ := rfl
  elapsed _ _ := rfl
  memory _ := rfl
  opening := rfl

/-! ## What is recorded -/

namespace Benchmark

variable {schedule : Schedule} {w : Workload} {plan : Plan} {i : Nat}
  {p last : σ × List Deed} {laps : List Lap} {e : Ended (σ × List Deed)}

theorem deeds_check {answer : Option Fault} (h : S.recorded.check p = (answer, last)) :
    last.2 = p.2 ++ [.look answer] := by
  cases h
  rfl

theorem deeds_laps (h : Laps S.recorded plan i p laps last) :
    last.2 = p.2 ++ Deed.laps plan i laps.length := by
  induction h with
  | nil => exact (List.append_nil _).symm
  | @cons i s checked begun called timed last start reply sample laps check
      clock call elapsed _ ih =>
    have hbegun : begun.2 = checked.2 ++ [.read] := (congrArg (·.2.2) clock).symm
    have hcalled : called.2 = begun.2 ++ [.begin plan i] ++ [.finish plan i] :=
      (congrArg (·.2.2) call).symm
    have htimed : timed.2 = called.2 ++ [.read] := (congrArg (·.2.2) elapsed).symm
    rw [ih, htimed, hcalled, hbegun, deeds_check check]
    simp [Deed.laps, List.range'_succ]

/-- The deeds of a benchmark up to where its laps end. -/
theorem Ran.deeds_last (h : Ran S.recorded schedule w p laps last e) :
    last.2 = p.2 ++ .read :: Deed.laps (w.plan (iterationsOf schedule w)) 0
      e.report.samples.length := by
  have hclock : (S.recorded.clock p).2.2 = p.2 ++ [.read] := rfl
  rw [deeds_laps h.made, hclock, h.samples, List.length_map, List.append_assoc]
  rfl

theorem Ran.deeds_of_completed (h : Ran S.recorded schedule w p laps last e) (hf : e.fault = none) :
    e.state.2 = p.2 ++ .read :: Deed.laps (w.plan (iterationsOf schedule w)) 0
      e.report.samples.length ++ [.read] := by
  rcases h.ended with ⟨-, -, hs⟩ | ⟨cause, stopped, hsome, -⟩
  · rw [hs, ← h.deeds_last]
    rfl
  · rw [hsome] at hf
    exact absurd hf (by simp)

theorem Ran.deeds_of_interrupted {name : Text} {cause : Fault}
    (h : Ran S.recorded schedule w p laps last e) (hf : e.fault = some (.benchmark name cause)) :
    e.state.2 = p.2 ++ .read :: Deed.laps (w.plan (iterationsOf schedule w)) 0
      e.report.samples.length ++ [.look (some cause), .read] := by
  rcases h.ended with ⟨hnone, -⟩ | ⟨c, stopped, hsome, -, hcheck, hs⟩
  · rw [hnone] at hf
    exact absurd hf (by simp)
  · obtain ⟨-, rfl⟩ : w.name = name ∧ c = cause := by simpa using hsome.symm.trans hf
    have helapsed : e.state.2 = stopped.2 ++ [.read] := by
      rw [hs]
      rfl
    rw [helapsed, deeds_check hcheck, h.deeds_last, List.append_assoc]
    rfl

theorem Ran.length_lt {f : Fault} (h : Ran S.recorded schedule w p laps last e)
    (hf : e.fault = some f) :
    (e.report.samples.length : Int) < schedule.runs := by
  have hle : (e.report.samples.length : Int) ≤ schedule.runs := by
    rw [h.samples, List.length_map]
    exact h.length_le
  refine lt_of_le_of_ne hle fun heq => ?_
  rw [h.fault_eq_none_iff.mpr heq] at hf
  exact absurd hf (by simp)

end Benchmark

namespace Session

variable {schedule : Schedule} {cause : Fault}

/-- The deeds of a session that has ended: it looks before each workload and begins none. -/
theorem deeds_of_ended (ws : List Workload) :
    ∀ (index : Int) (p : σ × List Deed), S.recorded.EndLasts p →
        (S.recorded.check p).1 = some cause →
      (runFrom S.recorded schedule index ws p).state.2 = p.2 ++ ws.map fun _ =>
        .look (some cause) := by
  induction ws with
  | nil => exact fun _ _ _ _ => (List.append_nil _).symm
  | cons w ws ih =>
    intro index p hS hcause
    rcases h : S.recorded.check p with ⟨answer, checked⟩
    have hchecked := reaches_checked h
    obtain rfl : answer = some cause := by rwa [h] at hcause
    rw [state_of_ended h, ih _ _ (hS.of_reaches hchecked) (hS .refl hchecked hcause),
      Benchmark.deeds_check h]
    simp

/-! ## Courses -/

/-- The result of a workload that is not begun because the session has ended. -/
def unbegun (cause : Fault) (w : Workload) : Result :=
  ⟨some w, { name := w.name }, some (.benchmark w.name cause)⟩

/-- What becomes of the workloads of a session: their results, the deeds, and why the session was
cut off. -/
inductive Course (schedule : Schedule) : Option Fault → List Workload →
    List Result → List Deed → Prop where
  | nil : Course schedule none [] [] []
  /-- The schedule does not fit the workload. -/
  | refused {cause : Option Fault} {w : Workload} {ws : List Workload}
      {rs : List Result} {deeds : List Deed} {field message : Text}
      (rest : Course schedule cause ws rs deeds) :
      Course schedule cause (w :: ws)
        (⟨some w, { name := w.name }, some (.validation field message)⟩ :: rs) (.look none :: deeds)
  /-- All runs are made. -/
  | completed {cause : Option Fault} {w : Workload} {ws : List Workload}
      {rs : List Result} {deeds : List Deed} {report : Report} (name : report.name = w.name)
      (length : (report.samples.length : Int) = schedule.runs)
      (rest : Course schedule cause ws rs deeds) :
      Course schedule cause (w :: ws) (⟨some w, report, none⟩ :: rs)
        (.look none :: .read :: Deed.laps (w.plan (Benchmark.iterationsOf schedule w)) 0
          report.samples.length ++ .read :: deeds)
  /-- The session ends between the runs of a workload. -/
  | interrupted {cause : Fault} {w : Workload} {ws : List Workload} {report : Report}
      (name : report.name = w.name) (length : (report.samples.length : Int) < schedule.runs) :
      Course schedule (some cause) (w :: ws)
        (⟨some w, report, some (.benchmark w.name cause)⟩ :: ws.map (unbegun cause))
        (.look none :: .read :: Deed.laps (w.plan (Benchmark.iterationsOf schedule w)) 0
          report.samples.length ++ .look (some cause) :: .read ::
          ws.map fun _ => .look (some cause))
  /-- The session ends between two workloads. -/
  | ended {cause : Fault} {w : Workload} {ws : List Workload} :
      Course schedule (some cause) (w :: ws) ((w :: ws).map (unbegun cause))
        ((w :: ws).map fun _ => .look (some cause))

theorem name_run (S : Surroundings σ) (schedule : Schedule) (index : Int) (w : Workload) (s : σ) :
    (Benchmark.run S schedule index w s).report.name = w.name := by
  rw [Benchmark.run]
  cases Benchmark.refusal? schedule w <;> rfl

/-- **Every session takes a course**, whatever it finds around it, and where it is cut off it has
ended. -/
theorem runFrom_course (schedule : Schedule) (ws : List Workload) :
    ∀ (index : Int) (p : σ × List Deed), S.recorded.EndLasts p →
      ∃ cause deeds,
          Course schedule cause ws (runFrom S.recorded schedule index ws p).results deeds ∧
        (runFrom S.recorded schedule index ws p).state.2 = p.2 ++ deeds ∧
        ∀ c ∈ cause,
          (S.recorded.check (runFrom S.recorded schedule index ws p).state).1 = some c := by
  induction ws with
  | nil => exact fun _ p _ => ⟨none, [], .nil, (List.append_nil _).symm, by simp⟩
  | cons w ws ih =>
    intro index p hS
    rcases h : S.recorded.check p with ⟨_ | cause, checked⟩
    · have hS' := hS.of_reaches (reaches_checked h)
      rw [state_of_not_ended h, runFrom_of_not_ended h]
      rcases Benchmark.refusal?_cases schedule w with ⟨-, field, message, href⟩ | ⟨hr, href⟩
      · obtain ⟨cause, deeds, hcourse, hdeeds, hcause⟩ := ih (index + 1) checked hS'
        rw [Benchmark.run_of_refusal href]
        refine ⟨cause, _, .refused hcourse, ?_, hcause⟩
        rw [hdeeds, Benchmark.deeds_check h, List.append_assoc]
        rfl
      · obtain ⟨laps, last, hran⟩ := Benchmark.run_ran S.recorded index checked href hr
        have hname := name_run S.recorded schedule index w checked
        have hS'' := hS'.of_reaches hran.reaches
        generalize Benchmark.run S.recorded schedule index w checked = e at hran hname hS'' ⊢
        cases hf : e.fault with
        | none =>
          obtain ⟨cause, deeds, hcourse, hdeeds, hcause⟩ := ih (index + 1) _ hS''
          refine ⟨cause, _, .completed hname (hran.fault_eq_none_iff.mp hf) hcourse, ?_, hcause⟩
          rw [hdeeds, hran.deeds_of_completed hf, Benchmark.deeds_check h]
          simp
        | some f =>
          -- The session had ended when the next lap was to begin, and this lasts through the rest.
          obtain ⟨cause, rfl, hend⟩ := hran.check_state hS' hf
          rw [results_of_ended ws _ _ hS'' hend, deeds_of_ended ws _ _ hS'' hend]
          refine ⟨some cause, _, .interrupted hname (hran.length_lt hf), ?_, ?_⟩
          · rw [hran.deeds_of_interrupted hf, Benchmark.deeds_check h]
            simp
          · rintro _ ⟨⟩
            exact hS'' .refl (reaches_runFrom ..) hend
    · have hcause : (S.recorded.check p).1 = some cause := by rw [h]
      rw [results_of_ended (w :: ws) _ _ hS hcause, deeds_of_ended (w :: ws) _ _ hS hcause]
      refine ⟨some cause, _, .ended, rfl, ?_⟩
      rintro _ ⟨⟩
      exact hS .refl (reaches_runFrom ..) hcause

/-! ## What a course says -/

/-- All runs were made, or none because the schedule does not fit the workload. -/
def Done (schedule : Schedule) (r : Result) : Prop :=
  r.fault = none ∧ (r.report.samples.length : Int) = schedule.runs ∨
    r.report.samples = [] ∧ ∃ field message, r.fault = some (.validation field message)

/-- The results of a session that is cut off at the workload `c`, or not at all if there are not
that many. -/
structure CutAt (schedule : Schedule) (cause : Fault) (c : Nat) (results : List Result) : Prop where
  before : ∀ r ∈ results.take c, Done schedule r
  cut : ∀ r ∈ results[c]?, (r.report.samples.length : Int) < schedule.runs ∧
    r.fault = some (.benchmark r.name cause)
  after : ∀ r ∈ results.drop (c + 1), r.report.samples = [] ∧
    r.fault = some (.benchmark r.name cause)

theorem CutAt.cons {c : Nat} {r : Result} {rs : List Result} (hr : Done schedule r)
    (h : CutAt schedule cause c rs) :
    CutAt schedule cause (c + 1) (r :: rs) :=
  ⟨by simpa using ⟨hr, h.before⟩, by simpa using h.cut, by simpa using h.after⟩

theorem cutAt_zero {r : Result} {ws : List Workload}
    (hlength : (r.report.samples.length : Int) < schedule.runs)
    (hfault : r.fault = some (.benchmark r.name cause)) :
    CutAt schedule cause 0 (r :: ws.map (unbegun cause)) :=
  ⟨by simp, by simpa using ⟨hlength, hfault⟩, by simp [unbegun, Result.name]⟩

namespace Course

variable {end? : Option Fault} {ws : List Workload} {rs : List Result} {deeds : List Deed}

theorem cutAt (h : Course schedule end? ws rs deeds) (hruns : 1 ≤ schedule.runs) :
    ∃ c cause, CutAt schedule cause c rs ∧ (c < rs.length → end? = some cause) := by
  induction h with
  | nil => exact ⟨0, .canceled, ⟨by simp, by simp, by simp⟩, by simp⟩
  | @refused end? w ws rs deeds field message _ ih =>
    obtain ⟨c, cause, hcut, hend⟩ := ih
    exact ⟨c + 1, cause, hcut.cons (.inr ⟨rfl, field, message, rfl⟩),
      fun h => hend (Nat.lt_of_succ_lt_succ h)⟩
  | completed name length _ ih =>
    obtain ⟨c, cause, hcut, hend⟩ := ih
    exact ⟨c + 1, cause, hcut.cons (.inl ⟨rfl, length⟩), fun h => hend (Nat.lt_of_succ_lt_succ h)⟩
  | @interrupted cause w ws report name length =>
    refine ⟨0, cause, cutAt_zero length ?_, fun _ => rfl⟩
    rw [Result.name, name]
  | @ended cause w ws =>
    exact ⟨0, cause, cutAt_zero (by simp [unbegun]; omega) rfl, fun _ => rfl⟩

theorem names (h : Course schedule end? ws rs deeds) :
    rs.map (fun r => (r.workload, r.name)) = ws.map fun w => (some w, w.name) := by
  induction h with
  | nil => rfl
  | refused _ ih => rw [List.map_cons, List.map_cons, ih]; rfl
  | completed name _ _ ih => rw [List.map_cons, List.map_cons, ih, Result.name, name]
  | interrupted name _ => simp [Result.name, name, unbegun]
  | ended => simp [Result.name, unbegun]

/-- The calls are those of the runs in the results, one after the other. -/
theorem calls (h : Course schedule end? ws rs deeds) :
    deeds.filter Deed.isCall = (rs.zip ws).flatMap fun (r, w) =>
      Deed.calls (w.plan (Benchmark.iterationsOf schedule w)) r.report.samples.length := by
  have hnone : ∀ cause (ws : List Workload),
        ((ws.map (unbegun cause)).zip ws).flatMap (fun (r, w) =>
      Deed.calls (w.plan (Benchmark.iterationsOf schedule w)) r.report.samples.length) = [] := by
    intro cause ws
    induction ws with
    | nil => rfl
    | cons w ws ih => simpa [unbegun, Deed.calls] using ih
  induction h with
  | nil => rfl
  | refused _ ih => simpa [Deed.isCall, Deed.calls] using ih
  | completed _ _ _ ih => simp [Deed.isCall, Deed.filter_laps, ih]
  | interrupted _ _ => simp [Deed.isCall, Deed.filter_laps, hnone]
  | ended =>
    rw [hnone]
    simp [Deed.isCall]

theorem obedient (h : Course schedule end? ws rs deeds) : Deed.Obedient deeds := by
  -- Up to the end of a workload's laps the end of the session has not been seen.
  have hlaps : ∀ plan n, ∀ d ∈ .look none :: .read :: Deed.laps plan 0 n, ¬ d.SeesEnd := by
    intro plan n d hd
    simp only [List.mem_cons] at hd
    rcases hd with rfl | rfl | hd
    · simp [Deed.SeesEnd]
    · simp [Deed.SeesEnd]
    · exact Deed.not_seesEnd_of_mem_laps hd
  induction h with
  | nil => exact .nil
  | refused _ ih => exact Deed.obedient_append (a := [.look none]) (by simp [Deed.SeesEnd]) ih
  | completed _ _ _ ih =>
    exact Deed.obedient_append (hlaps _ _)
      (Deed.obedient_append (a := [.read]) (by simp [Deed.SeesEnd]) ih)
  | interrupted _ _ =>
    exact Deed.obedient_append (hlaps _ _) (Deed.obedient_of_no_call (by simp [Deed.isCall]))
  | ended => exact Deed.obedient_of_no_call (by simp [Deed.isCall])

end Course

/-! ## The runs that are told -/

theorem observed_run (S : Surroundings σ) (schedule : Schedule) (index : Int)
    (w : Workload) (s : σ) :
    Benchmark.observed (Benchmark.run S schedule index w s).notices =
      (Benchmark.run S schedule index w s).report.samples.map fun d => (w.name, d) := by
  rcases Benchmark.refusal?_cases schedule w with ⟨-, field, message, h⟩ | ⟨hr, h⟩
  · rw [Benchmark.run_of_refusal h]
    rfl
  · obtain ⟨laps, last, hran⟩ := Benchmark.run_ran S index s h hr
    rw [hran.observed, hran.samples, List.map_map]
    rfl

/-- Every sample is told once, under the name of its result. -/
theorem observed_runFrom (S : Surroundings σ) (schedule : Schedule)
    (ws : List Workload) (index : Int) (s : σ) :
    Benchmark.observed (runFrom S schedule index ws s).notices =
      (runFrom S schedule index ws s).results.flatMap fun r =>
        r.report.samples.map fun d => (r.name, d) := by
  induction ws generalizing index s with
  | nil => rfl
  | cons w ws ih =>
    rcases h : S.check s with ⟨_ | cause, checked⟩
    · have hopening :
          Benchmark.observed ((S.opening w).map fun e => ⟨S.now checked, .entry e⟩) = [] := by
        simp [Benchmark.observed, List.filterMap_map]
      rw [notices_of_not_ended h, runFrom_of_not_ended h, Benchmark.observed_append,
        Benchmark.observed_append, hopening, observed_run, ih,
        List.flatMap_cons, Result.name, name_run]
      rfl
    · rw [notices_of_ended h, runFrom_of_ended h, ih]
      rfl

theorem countP_samples (rs : List Result) (name : Text) :
    (rs.flatMap fun r => r.report.samples.map fun d => (r.name, d)).countP (fun p => p.1 = name) =
      ((rs.filter (·.name = name)).flatMap (·.report.samples)).length := by
  induction rs with
  | nil => rfl
  | cons r rs ih =>
    rw [List.flatMap_cons, List.countP_append, ih, List.countP_map]
    by_cases h : r.name = name
    · simp only [h, Function.comp_def, decide_true, List.countP_true,
        List.filter_cons_of_pos, List.flatMap_cons, List.length_append]
    · simp only [h, Function.comp_def, decide_false, List.countP_false]
      rw [List.filter_cons_of_neg (by simpa using h)]
      exact Nat.zero_add _

/-- What a session tells a recorder is told under the name of a result with samples. -/
theorem label_runFrom (S : Surroundings σ) (schedule : Schedule)
    (ws : List Workload) (index : Int) (s : σ) :
    ∀ n ∈ (runFrom S schedule index ws s).notices, ∀ label ∈ Recorder.label? n.value,
      ∃ r ∈ (runFrom S schedule index ws s).results, r.name = label ∧ r.report.samples ≠ [] := by
  induction ws generalizing index s with
  | nil => exact List.forall_mem_nil _
  | cons w ws ih =>
    intro n hn label hlabel
    rcases h : S.check s with ⟨_ | cause, checked⟩
    · rw [notices_of_not_ended h] at hn
      rw [runFrom_of_not_ended h]
      simp only [List.mem_append, List.mem_map] at hn
      rcases hn with (⟨entry, -, rfl⟩ | hn) | hn
      · exact absurd hlabel (by simp [Recorder.label?])
      · obtain ⟨rfl, hne⟩ := Benchmark.label_run S schedule index w checked n hn label hlabel
        exact ⟨_, List.mem_cons_self, name_run .., hne⟩
      · obtain ⟨r, hr, hname⟩ := ih _ _ n hn label hlabel
        exact ⟨r, List.mem_cons_of_mem _ hr, hname⟩
    · rw [notices_of_ended h] at hn
      rw [runFrom_of_ended h]
      obtain ⟨r, hr, hname⟩ := ih _ _ n hn label hlabel
      exact ⟨r, List.mem_cons_of_mem _ hr, hname⟩

/-- A recorder takes all that a session tells if and only if the names under which runs were made
are UTF-8. -/
theorem accepts_runFrom_iff (S : Surroundings σ) (schedule : Schedule)
    (ws : List Workload) (index : Int) (s : σ) :
    (∀ n ∈ (runFrom S schedule index ws s).notices, Recorder.accepts n.value = true) ↔
      ∀ r ∈ (runFrom S schedule index ws s).results, r.report.samples ≠ [] →
        r.name.isUtf8 = true := by
  simp only [Recorder.accepts_iff]
  constructor
  · intro h r hr hne
    obtain ⟨d, hd⟩ := List.exists_mem_of_ne_nil _ hne
    -- A sample of the result was told, under its name.
    have hmem : (r.name, d) ∈ Benchmark.observed (runFrom S schedule index ws s).notices := by
      rw [observed_runFrom]
      exact List.mem_flatMap.mpr ⟨r, hr, List.mem_map_of_mem hd⟩
    obtain ⟨⟨time, value⟩, hn, htold⟩ := List.mem_filterMap.mp hmem
    refine h _ hn _ ?_
    cases value with
    | run workload sample => exact congrArg some (Prod.mk.inj (Option.some.inj htold)).1
    | _ => exact absurd htold (by simp)
  · intro h n hn label hlabel
    obtain ⟨r, hr, rfl, hne⟩ := label_runFrom S schedule ws index s n hn label hlabel
    exact h r hr hne

/-! ## Where a session is cut off -/

/-- **Where a session is cut off.** There is one result for each workload, in order and under its
name. Up to some workload all are completed or refused; that one, if there is one, lacks runs, and
none of those after it was run; these all fail for the cause for which the session has ended.
Surroundings that keep a record have the same session, and their record shows that no call is made
once the end was seen, and that the calls are those of the runs in the results, each at its end
before the next begins. The recorder counts under each name the samples of its results; it takes all
that it is told if and only if the names of the results with samples are UTF-8. -/
theorem run_cut (S : Surroundings σ) (schedule : Schedule) (ws : List Workload)
    (s : σ) (hS : S.EndLasts s) (hruns : 1 ≤ schedule.runs) :
    let e := run S schedule ws s
    let recorded := run S.recorded schedule ws (s, [])
    e.results.map (fun r => (r.workload, r.name)) = ws.map (fun w => (some w, w.name)) ∧
      (∃ c cause, CutAt schedule cause c e.results ∧
        (c < e.results.length → (S.check e.state).1 = some cause)) ∧
      e = recorded.map Prod.fst ∧
      Deed.Obedient recorded.state.2 ∧
      recorded.state.2.filter Deed.isCall = ((e.results.zip ws).flatMap fun (r, w) =>
        Deed.calls (w.plan (Benchmark.iterationsOf schedule w)) r.report.samples.length) ∧
      (∀ name, (Recorder.ofNotices e.notices).runCount name =
        ((e.results.filter (·.name = name)).flatMap (·.report.samples)).length) ∧
      ((∀ n ∈ e.notices, Recorder.accepts n.value = true) ↔
        ∀ r ∈ e.results, r.report.samples ≠ [] → r.name.isUtf8 = true) := by
  intro e recorded
  have hom := S.recorded_hom
  have he : e = recorded.map Prod.fst := hom.runFrom schedule ws 0 (s, [])
  obtain ⟨end?, deeds, hcourse, hdeeds, hend⟩ :=
    runFrom_course schedule ws 0 (s, []) (hom.endLasts hS)
  obtain rfl : recorded.state.2 = deeds := hdeeds
  have hresults : recorded.results = e.results := by rw [he]; rfl
  have hcheck : (S.check e.state).1 = (S.recorded.check recorded.state).1 := by rw [he]; rfl
  obtain ⟨c, cause, hcut, hc⟩ := hcourse.cutAt hruns
  refine ⟨hresults ▸ hcourse.names, ⟨c, cause, hresults ▸ hcut, fun h => ?_⟩, he, hcourse.obedient,
    hresults ▸ hcourse.calls, fun name => ?_, accepts_runFrom_iff S schedule ws 0 s⟩
  · rw [hcheck]
    exact hend cause (hc (hresults ▸ h))
  · rw [Recorder.runCount_ofNotices, ← countP_samples]
    exact congrArg _ (observed_runFrom S schedule ws 0 s)

/-- Workloads of which one is completed, one is refused, one is canceled after its first run, and
one is never begun. -/
def cutWorkloads : List Workload :=
  [{ name := "quick", plan := fun _ => .always { takes := 1 } },
    { name := "small", bound := 2, plan := default },
    { name := "slow", plan := fun _ => .always { takes := 5 } },
    { name := "next", plan := default }]

theorem run_cut_of_cancel :
    let e := run World.surroundings ⟨2, 3⟩ cutWorkloads { canceled := some ⟨7⟩ }
    e.results.map (·.report.samples.length) = [2, 0, 1, 0] ∧
      (∃ c cause, CutAt ⟨2, 3⟩ cause c e.results ∧
        (c < e.results.length → (World.surroundings.check e.state).1 = some cause)) ∧
      (Recorder.ofNotices e.notices).runCount "slow" = 1 := by
  have h := run_cut World.surroundings ⟨2, 3⟩ cutWorkloads { canceled := some ⟨7⟩ }
    (World.lawful_surroundings rfl).endLasts (by decide)
  refine ⟨rfl, h.2.1, ?_⟩
  rw [h.2.2.2.2.2.1]
  rfl

end Session

end Stopwatch
