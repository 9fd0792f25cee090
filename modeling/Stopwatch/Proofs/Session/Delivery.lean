import Stopwatch.Proofs.Session.Relay

/-!
# The delivery of progress

The display of a session receives the updates of the completed runs, in order and each once
(`delivery`). Only that of the last completed run may be missing, and only if the session has ended.

The runs are those of `Session.run`. While an update waits to be sent, time passes, and the session
may end. So a relay does what the session does in surroundings where a measured time is followed by
a wait, and how long each one takes is listed beforehand (`Surroundings.delayed`). A relay whose
display takes every update at once does what the session does by itself, and receives the updates
that it tells (`exists_steps_run`).
-/

namespace Stopwatch

variable {σ τ : Type}

/-! ## Waits -/

namespace Surroundings

/-- Time passes while an update waits to be sent. -/
def waits (S : Surroundings σ) (n : Nat) (s : σ) : σ := (fun s => (S.check s).2)^[n] s

/-- The same surroundings, where after a measured time the session waits. The waits are listed
beforehand; those that are not listed take no time. -/
def delayed (S : Surroundings σ) : Surroundings (σ × List Nat) where
  now p := S.now p.1
  check p := ((S.check p.1).1, (S.check p.1).2, p.2)
  clock p := ((S.clock p.1).1, (S.clock p.1).2, p.2)
  begin plan i p := (S.begin plan i p.1, p.2)
  finish plan i p := ((S.finish plan i p.1).1, (S.finish plan i p.1).2, p.2)
  elapsed start p := ((S.elapsed start p.1).1,
    S.waits (p.2.headD 0) (S.elapsed start p.1).2, p.2.tail)
  memory p := S.memory p.1
  opening := S.opening

variable {S : Surroundings σ} {s checked : σ}

theorem delayed_check {answer : Option Fault}
    (h : S.check s = (answer, checked)) (waits : List Nat) :
    S.delayed.check (s, waits) = (answer, checked, waits) := by
  simp only [delayed, h]

theorem delayed_time {plan : Plan} {i : Nat} {reply : Reply} {sample : Duration} {timed : σ}
    (h : S.time plan i s = ((reply, sample), timed)) (n : Nat) (waits : List Nat) :
    S.delayed.time plan i (s, n :: waits) = ((reply, sample), S.waits n timed, waits) := by
  simp only [time, Prod.mk.injEq] at h
  obtain ⟨⟨rfl, rfl⟩, rfl⟩ := h
  rfl

theorem reaches_waits (S : Surroundings σ) (n : Nat) (s : σ) : S.Reaches s (S.waits n s) := by
  induction n generalizing s with
  | zero => exact .refl
  | succ n ih => exact (Reaches.check .refl).trans (ih (S.check s).2)

theorem reaches_of_delayed {p q : σ × List Nat} (h : S.delayed.Reaches p q) :
    S.Reaches p.1 q.1 := by
  induction h with
  | refl => exact .refl
  | check _ ih => exact ih.check
  | clock _ ih => exact ih.clock
  | call plan i _ ih => exact ih.call plan i
  | elapsed start _ ih => exact (ih.elapsed start).trans (S.reaches_waits _ _)

/-- Waiting does not change that the end of a session lasts. -/
theorem EndLasts.delayed (h : S.EndLasts s) (waits : List Nat) : S.delayed.EndLasts (s, waits) :=
  fun _ _ _ h₁ h₂ hcause => h (reaches_of_delayed h₁) (reaches_of_delayed h₂) hcause

end Surroundings

namespace Session

variable {S : Surroundings σ} {T : Surroundings τ} {schedule : Schedule}
  {index : Int} {w : Workload} {ws : List Workload}

/-! ## The updates of runs -/

/-- The updates of the runs of a benchmark after the first `done`. -/
def lapUpdates (schedule : Schedule) (index : Int) (name : Text) (done : Nat)
    (samples : List Duration) :
    List Progress.Update :=
  (samples.zipIdx done).map fun (d, i) => .ofRun index name (i + 1) schedule.runs d

theorem lapUpdates_cons (name : Text) (done : Nat) (d : Duration) (samples : List Duration) :
    lapUpdates schedule index name done (d :: samples) =
      .ofRun index name (done + 1) schedule.runs d ::
      lapUpdates schedule index name (done + 1) samples := rfl

/-- The updates of all completed runs: those of the first result have the given index, and so on. -/
def runUpdates (schedule : Schedule) : Int → List Result → List Progress.Update
  | _, [] => []
  | index, r :: rs =>
    lapUpdates schedule index r.name 0 r.report.samples ++ runUpdates schedule (index + 1) rs

/-- The order in which runs are made. -/
def Before (u v : Progress.Update) : Prop := u.index < v.index ∨ u.index = v.index ∧ u.run < v.run

theorem mem_lapUpdates {name : Text} {done : Nat} {samples : List Duration} {u : Progress.Update}
    (h : u ∈ lapUpdates schedule index name done samples) :
    u.index = index ∧ (done : Int) < u.run := by
  obtain ⟨⟨d, i⟩, hmem, rfl⟩ := List.mem_map.mp h
  have hle := List.le_snd_of_mem_zipIdx hmem
  exact ⟨rfl, by simp only [Progress.Update.ofRun]; omega⟩

theorem le_index_of_mem_runUpdates {rs : List Result} {u : Progress.Update}
    (h : u ∈ runUpdates schedule index rs) :
    index ≤ u.index := by
  induction rs generalizing index with
  | nil => simp [runUpdates] at h
  | cons r rs ih =>
    rcases List.mem_append.mp h with h | h
    · exact (mem_lapUpdates h).1.ge
    · have hle := ih h
      omega

theorem pairwise_lapUpdates (name : Text) (done : Nat) (samples : List Duration) :
    (lapUpdates schedule index name done samples).Pairwise Before := by
  induction samples generalizing done with
  | nil => exact .nil
  | cons d samples ih =>
    refine List.pairwise_cons.mpr ⟨fun u hu => ?_, ih (done + 1)⟩
    obtain ⟨hindex, hrun⟩ : u.index = index ∧ ((done + 1 : Nat) : Int) < u.run := mem_lapUpdates hu
    exact .inr ⟨hindex.symm, by simpa [Progress.Update.ofRun] using hrun⟩

/-- The updates of a session are in order, and no two are of the same run. -/
theorem pairwise_runUpdates (rs : List Result) :
    (runUpdates schedule index rs).Pairwise Before := by
  induction rs generalizing index with
  | nil => exact .nil
  | cons r rs ih =>
    refine List.pairwise_append.mpr ⟨pairwise_lapUpdates .., ih, fun u hu v hv => .inl ?_⟩
    have hindex := (mem_lapUpdates hu).1
    have hle := le_index_of_mem_runUpdates hv
    omega

/-! ## What is told -/

theorem updates_append (a b : List (Timed Notice)) : updates (a ++ b) = updates a ++ updates b :=
  List.filterMap_append ..

theorem updates_runNotices (time : Moment) (u : Progress.Update) (reply : Reply) (ended : Bool) :
    updates (Benchmark.runNotices time u reply ended) = if ended then [] else [u] := by
  unfold Benchmark.runNotices
  rw [updates_append, updates_append]
  cases ended <;> by_cases h : reply.printed.isEmpty <;> simp [h, updates]

theorem updates_opening (entries : List Journal.Entry) (time : Moment) :
    updates (entries.map fun e => ⟨time, .entry e⟩) = [] := by
  simp [updates, List.filterMap_map]

theorem updates_reportNotices (report : Report) (fault : Option Fault) (time : Moment) :
    updates
      ((Benchmark.reportNotices report ++ [Notice.entry (Benchmark.endEntry report fault)]).map
        fun n => ⟨time, n⟩) = [] := by
  unfold Benchmark.reportNotices
  split_ifs <;> rfl

/-- The runs of a benchmark that is not refused. -/
def runsOf (T : Surroundings τ) (schedule : Schedule) (index : Int) (w : Workload)
    (left done : Nat) (t : τ) : Runs τ :=
  Benchmark.timeRuns T (w.plan (Benchmark.iterationsOf schedule w)) index w.name
    schedule.runs left done t

theorem runsOf_of_ended {t checked : τ} {left done : Nat} {cause : Fault}
    (h : T.check t = (some cause, checked)) :
    runsOf T schedule index w (left + 1) done t = { fault := some cause, state := checked } := by
  rw [runsOf, Benchmark.timeRuns, h]

theorem runsOf_of_not_ended {t checked timed : τ} {left done : Nat}
    {reply : Reply} {sample : Duration} (h : T.check t = (none, checked))
    (htime : T.time (w.plan (Benchmark.iterationsOf schedule w)) done checked =
      ((reply, sample), timed)) :
    let rest := runsOf T schedule index w left (done + 1) timed
    runsOf T schedule index w (left + 1) done t =
      { rest with
        samples := sample :: rest.samples
        outcome := some (rest.outcome.getD reply.outcome)
        notices := Benchmark.runNotices (T.now timed)
          (.ofRun index w.name (done + 1) schedule.runs sample) reply (T.check timed).1.isSome ++
          rest.notices } := by
  intro rest
  rw [runsOf, Benchmark.timeRuns, h]
  simp only [htime]
  rfl

/-- A benchmark that is not refused, told by its runs. -/
theorem run_of_accepted (T : Surroundings τ) (index : Int) (t : τ)
    (h : Benchmark.refusal? schedule w = none) :
    let runs := runsOf T schedule index w schedule.runs.toNat 0 (T.clock t).2
    let e := Benchmark.run T schedule index w t
    e.report.name = w.name ∧ e.report.samples = runs.samples ∧
        e.state = (T.elapsed (T.clock t).1 runs.state).2 ∧
      updates e.notices = updates runs.notices := by
  intro runs e
  have he : e = Benchmark.run T schedule index w t := rfl
  rw [Benchmark.run, h] at he
  refine ⟨by rw [he], by rw [he]; rfl, by rw [he]; rfl, ?_⟩
  rw [he, updates_append, updates_append, updates_reportNotices, List.append_nil]
  rfl

/-! ## The rest of a session -/

/-- What is left to a session, told by `runFrom`: the updates of the runs to come, and the state at
the end. -/
def Phase.rest (T : Surroundings τ) (schedule : Schedule) : Phase → τ → List Progress.Update × τ
  | next index ws, t =>
    let e := runFrom T schedule index ws t
    (runUpdates schedule index e.results, e.state)
  | laps b left done, t | sending b left done _, t =>
    let runs := runsOf T schedule b.index b.workload left done t
    let e := runFrom T schedule (b.index + 1) b.rest (T.elapsed b.begun runs.state).2
    (lapUpdates schedule b.index b.workload.name done runs.samples ++
      runUpdates schedule (b.index + 1) e.results, e.state)
  | waiting, t | returned, t => ([], t)

section Rest

variable {t checked timed : τ} {b : Underway} {left done : Nat} {cause : Fault}

theorem rest_skip (h : T.check t = (some cause, checked)) :
    (Phase.next index (w :: ws)).rest T schedule t =
      (Phase.next (index + 1) ws).rest T schedule checked := by
  simp only [Phase.rest, runFrom_of_ended h, state_of_ended h]
  rfl

theorem rest_refuse {fault : Fault} (h : T.check t = (none, checked))
    (hr : Benchmark.refusal? schedule w = some fault) :
    (Phase.next index (w :: ws)).rest T schedule t =
      (Phase.next (index + 1) ws).rest T schedule checked := by
  simp only [Phase.rest, runFrom_of_not_ended h, state_of_not_ended h, Benchmark.run_of_refusal hr]
  rfl

theorem rest_begin (h : T.check t = (none, checked)) (hr : Benchmark.refusal? schedule w = none) :
    (Phase.next index (w :: ws)).rest T schedule t =
      (Phase.laps ⟨index, w, (T.clock checked).1, ws⟩ schedule.runs.toNat 0).rest T schedule
      (T.clock checked).2 := by
  obtain ⟨hname, hsamples, hstate, -⟩ := run_of_accepted T index checked hr
  simp only [Phase.rest, runFrom_of_not_ended h, state_of_not_ended h, runUpdates, Result.name,
    hname, hsamples, hstate]

theorem rest_run {reply : Reply} {sample : Duration} (h : T.check t = (none, checked))
    (htime : T.time (b.workload.plan (Benchmark.iterationsOf schedule b.workload)) done checked =
      ((reply, sample), timed)) :
    (Phase.laps b (left + 1) done).rest T schedule t =
      (.ofRun b.index b.workload.name (done + 1) schedule.runs sample ::
        ((Phase.laps b left (done + 1)).rest T schedule timed).1,
        ((Phase.laps b left (done + 1)).rest T schedule timed).2) := by
  simp only [Phase.rest, runsOf_of_not_ended h htime, lapUpdates_cons, List.cons_append]

theorem rest_stop (h : T.check t = (some cause, checked)) :
    (Phase.laps b (left + 1) done).rest T schedule t =
      (Phase.next (b.index + 1) b.rest).rest T schedule (T.elapsed b.begun checked).2 := by
  simp only [Phase.rest, runsOf_of_ended h]
  rfl

end Rest

/-! ## A relay follows the session -/

namespace Relay

variable {s : σ} {m m' : Relay σ}

/-- From the state and with the waits that are left, the session completes the rest of what it
completes with all the waits. -/
def Continues (S : Surroundings σ) (schedule : Schedule) (ws : List Workload) (s : σ)
    (m : Relay σ) (waits : List Nat) (t : σ) (left : List Nat) : Prop :=
  (Phase.next 0 ws).rest S.delayed schedule (s, waits) =
    (m.completed ++ (m.phase.rest S.delayed schedule (t, left)).1,
      (m.phase.rest S.delayed schedule (t, left)).2)

/-- The relay does what the session does with some waits. Those to come are not settled yet, nor is
that of an update which still waits to be sent. -/
def Follows (S : Surroundings σ) (schedule : Schedule) (ws : List Workload)
    (s : σ) (m : Relay σ) : Prop :=
  match m.phase with
  | .sending .. =>
    ∃ waits n, ∀ k left, m.Continues S schedule ws s (waits ++ (n + k) :: left)
      (S.waits k m.state) left
  | _ => ∃ waits, ∀ left, m.Continues S schedule ws s (waits ++ left) m.state left

theorem follows_start (S : Surroundings σ) (schedule : Schedule) (ws : List Workload) (s : σ) :
    Follows S schedule ws s (start ws s) := by
  refine ⟨[], fun left => ?_⟩
  simp [Continues, start]

/-- A step that completes no run, during which the session waits as listed. -/
theorem exists_continues {phase : Phase} (extra : List Nat) (hphase : m.phase = phase)
    (h : ∃ waits, ∀ left, m.Continues S schedule ws s (waits ++ left) m.state left)
    (hcompleted : m'.completed = m.completed)
    (hrest : ∀ left, phase.rest S.delayed schedule (m.state, extra ++ left) =
      m'.phase.rest S.delayed schedule (m'.state, left)) :
    ∃ waits, ∀ left, m'.Continues S schedule ws s (waits ++ left) m'.state left := by
  obtain ⟨waits, h⟩ := h
  refine ⟨waits ++ extra, fun left => ?_⟩
  have hleft := h (extra ++ left)
  rwa [Continues, hphase, hrest, ← hcompleted, ← List.append_assoc] at hleft

/-- The update was sent or given up, which settles its wait. -/
theorem exists_continues_of_sending {b : Underway} {left done : Nat} {u : Progress.Update}
    (hphase : m.phase = .sending b left done u) (hphase' : m'.phase = .laps b left done)
    (hstate : m'.state = m.state) (hcompleted : m'.completed = m.completed)
    (h : ∃ waits n, ∀ k left, m.Continues S schedule ws s (waits ++ (n + k) :: left)
      (S.waits k m.state) left) :
    ∃ waits, ∀ left, m'.Continues S schedule ws s (waits ++ left) m'.state left := by
  obtain ⟨waits, n, h⟩ := h
  refine ⟨waits ++ [n], fun left => ?_⟩
  have hleft := h 0 left
  rw [Continues, hphase] at hleft
  rw [Continues, hphase', hstate, hcompleted, List.append_assoc]
  exact hleft

theorem Follows.step (h : Follows S schedule ws s m) (hstep : Step S schedule m m') :
    Follows S schedule ws s m' := by
  cases hstep with
  | skip phase check =>
    rw [Follows, phase] at h
    exact exists_continues [] phase h rfl fun left =>
      rest_skip (Surroundings.delayed_check check left)
  | refuse phase check refusal =>
    rw [Follows, phase] at h
    exact exists_continues [] phase h rfl fun left =>
      rest_refuse (Surroundings.delayed_check check left) refusal
  | begin phase check refusal =>
    rw [Follows, phase] at h
    exact exists_continues [] phase h rfl fun left =>
      rest_begin (Surroundings.delayed_check check left) refusal
  | run phase check time update =>
    rw [Follows, phase] at h
    obtain ⟨waits, h⟩ := h
    -- How long the update waits is not settled yet: whatever it will be comes next in the list.
    refine ⟨waits, 0, fun k left => ?_⟩
    have hleft := h (k :: left)
    rw [Continues, phase, rest_run (Surroundings.delayed_check check _)
      (Surroundings.delayed_time time k left), ← update] at hleft
    rw [Continues, Nat.zero_add, List.append_assoc]
    exact hleft
  | stop phase check =>
    rw [Follows, phase] at h
    exact exists_continues [0] phase h rfl fun left =>
      rest_stop (Surroundings.delayed_check check (0 :: left))
  | finish phase =>
    rw [Follows, phase] at h
    exact exists_continues [0] phase h rfl fun _ => rfl
  | wait phase =>
    simp only [Follows, phase] at h ⊢
    obtain ⟨waits, n, h⟩ := h
    refine ⟨waits, n + 1, fun k left => ?_⟩
    have hleft := h (k + 1) left
    rw [Continues, phase] at hleft
    rw [Nat.add_right_comm]
    exact hleft
  | send phase _ =>
    rw [Follows, phase] at h
    exact exists_continues_of_sending phase rfl rfl rfl h
  | giveUp phase _ =>
    rw [Follows, phase] at h
    exact exists_continues_of_sending phase rfl rfl rfl h
  | close phase =>
    rw [Follows, phase] at h
    exact exists_continues [] phase h rfl fun _ => rfl
  | receive _ => exact h
  | see _ _ => exact h
  | leave phase _ =>
    rw [Follows, phase] at h
    exact exists_continues [] phase h rfl fun _ => rfl

theorem follows_of_steps (hsteps : Steps S schedule (start ws s) m) :
    Follows S schedule ws s m := by
  induction hsteps with
  | refl => exact follows_start S schedule ws s
  | tail _ hstep ih => exact ih.step hstep

/-- What a session that has returned completed is what it completes with some waits. -/
theorem completed_of_returned (hsteps : Steps S schedule (start ws s) m)
    (hphase : m.phase = .returned) :
    ∃ waits, let e := Session.run S.delayed schedule ws (s, waits)
      m.completed = runUpdates schedule 0 e.results ∧ m.state = e.state.1 := by
  have h := follows_of_steps hsteps
  rw [Follows, hphase] at h
  obtain ⟨waits, h⟩ := h
  have hnil := h []
  rw [Continues, hphase, List.append_nil] at hnil
  obtain ⟨hcompleted, hstate⟩ := Prod.mk.inj hnil
  rw [Phase.rest, List.append_nil] at hcompleted
  exact ⟨waits, hcompleted.symm, (congrArg Prod.fst hstate).symm⟩

/-! ## A display that takes every update at once -/

theorem steps_laps (S : Surroundings σ) (schedule : Schedule) (b : Underway)
    (left done : Nat) (s : σ) (completed received : List Progress.Update) :
    let runs := runsOf S schedule b.index b.workload left done s
    Steps S schedule ⟨.laps b left done, s, completed, [], false, received, false⟩
      ⟨.next (b.index + 1) b.rest, (S.elapsed b.begun runs.state).2,
        completed ++ lapUpdates schedule b.index b.workload.name done runs.samples, [], false,
        received ++ updates runs.notices, false⟩ := by
  induction left generalizing done s completed received with
  | zero =>
    have hstep : Step S schedule ⟨.laps b 0 done, s, completed, [], false, received, false⟩ _ :=
      .finish rfl
    simpa [runsOf, Benchmark.timeRuns, lapUpdates, updates] using Relation.ReflTransGen.single hstep
  | succ left ih =>
    rcases hcheck : S.check s with ⟨_ | cause, checked⟩
    · obtain ⟨⟨reply, sample⟩, timed, htime⟩ : ∃ r timed,
          S.time (b.workload.plan (Benchmark.iterationsOf schedule b.workload)) done checked =
            (r, timed) := ⟨_, _, rfl⟩
      simp only [runsOf_of_not_ended hcheck htime, lapUpdates_cons,
        updates_append, updates_runNotices]
      generalize hu : Progress.Update.ofRun b.index b.workload.name
        (done + 1) schedule.runs sample = u
      refine .head (.run rfl hcheck htime hu.symm) ?_
      cases hend : (S.check timed).1 with
      | none =>
        -- The update is sent, and the display takes it before anything else is done.
        refine .head (.send rfl (show 0 < room by decide)) (.head (.receive rfl) ?_)
        simpa using ih (done + 1) timed (completed ++ [u]) (received ++ [u])
      | some cause =>
        refine .head (.giveUp rfl hend) ?_
        simpa using ih (done + 1) timed (completed ++ [u]) received
    · have hstep : Step S schedule ⟨.laps b (left + 1) done, s, completed, [],
          false, received, false⟩ _ :=
        .stop rfl hcheck
      simpa [runsOf_of_ended hcheck, lapUpdates, updates] using Relation.ReflTransGen.single hstep

theorem steps_next (S : Surroundings σ) (schedule : Schedule)
    (ws : List Workload) (index : Int) (s : σ) (completed received : List Progress.Update) :
    let e := runFrom S schedule index ws s
    Steps S schedule ⟨.next index ws, s, completed, [], false, received, false⟩
      ⟨.next (index + ws.length) [], e.state,
        completed ++ runUpdates schedule index e.results, [], false,
        received ++ updates e.notices, false⟩ := by
  induction ws generalizing index s completed received with
  | nil => simpa [runFrom, runUpdates, updates] using Relation.ReflTransGen.refl
  | cons w ws ih =>
    have hindex : index + ((w :: ws).length : Int) = index + 1 + ws.length := by
      rw [List.length_cons]
      omega
    rw [hindex]
    rcases hcheck : S.check s with ⟨_ | cause, checked⟩
    · simp only [runFrom_of_not_ended hcheck, state_of_not_ended hcheck,
        notices_of_not_ended hcheck, updates_append, updates_opening, List.nil_append, runUpdates]
      cases hr : Benchmark.refusal? schedule w with
      | some fault =>
        refine .head (.refuse rfl hcheck hr) ?_
        rw [Benchmark.run_of_refusal hr]
        exact ih (index + 1) checked completed received
      | none =>
        obtain ⟨hname, hsamples, hstate, hnotices⟩ := run_of_accepted S index checked hr
        have hlaps :=
          steps_laps S schedule ⟨index, w, (S.clock checked).1, ws⟩ schedule.runs.toNat 0
            (S.clock checked).2 completed received
        refine .head (.begin rfl hcheck hr) (hlaps.trans ?_)
        simp only [Result.name, hname, hsamples, hstate, hnotices, ← List.append_assoc]
        exact ih (index + 1) _ _ _
    · simp only [runFrom_of_ended hcheck, state_of_ended hcheck,
        notices_of_ended hcheck, runUpdates]
      refine .head (.skip rfl hcheck) ?_
      exact ih (index + 1) checked completed received

/-- The sequential session is one of the relays. -/
theorem exists_steps_run (S : Surroundings σ) (schedule : Schedule) (ws : List Workload) (s : σ) :
    ∃ m, Steps S schedule (start ws s) m ∧ m.phase = .returned ∧
      m.completed = runUpdates schedule 0 (Session.run S schedule ws s).results ∧
      m.received = updates (Session.run S schedule ws s).notices := by
  have hsteps := steps_next S schedule ws 0 s [] []
  exact ⟨_, ((hsteps.tail (.close rfl)).tail (.see rfl rfl)).tail (.leave rfl rfl), rfl, rfl, rfl⟩

/-! ## Delivery -/

/-- At any time the display has received, and the channel holds, the first of the completed updates.
-/
theorem Kept.isPrefix {m : Relay σ} (h : Kept S m) : m.sent <+: m.completed := by
  rcases h with heq | ⟨-, u, cause, heq, -⟩
  · exact ⟨_, heq.symm⟩
  · exact ⟨_, heq.symm⟩

theorem Sound.received_of_returned (h : Sound S s m) (hphase : m.phase = .returned) :
    m.channel = [] ∧ (m.received = m.completed ∨
      ∃ u cause, m.completed = m.received ++ [u] ∧ (S.check m.state).1 = some cause) := by
  have hempty := (h.empty_of_finished (h.finished_of_returned hphase)).2
  have hsent : m.sent = m.received := by rw [sent, hempty, List.append_nil]
  refine ⟨hempty, ?_⟩
  rcases h.kept with heq | ⟨-, u, cause, heq, hend⟩
  · have hpending : m.phase.pending = [] := by rw [hphase]; rfl
    rw [hpending, hsent, List.append_nil] at heq
    exact .inl heq.symm
  · rw [hsent] at heq
    exact .inr ⟨u, cause, heq, hend⟩

/-- **The display receives the updates of the completed runs**, however its steps and those of the
session fall in with each other, and whenever the session ends.

At any time the updates sent are the first of those completed, in a channel that never holds more
than it has room for; once it is closed nothing is sent, and the session can always return. When it
has returned, the channel is empty. The completed runs are those of the session's results, for some
waits while updates were sent; their updates are in order, no two of the same run, and the display
has received them all, except perhaps the last one if the session has ended. One of the ways it can
go is that of the session by itself, with the updates it tells. -/
theorem delivery (S : Surroundings σ) (schedule : Schedule) (ws : List Workload)
    (s : σ) (hS : S.EndLasts s) :
    (∀ m, Steps S schedule (start ws s) m →
      m.channel.length ≤ room ∧ m.sent <+: m.completed ∧
        (m.closed = true → ∀ m', Steps S schedule m m' → m'.sent = m.sent) ∧
        ∃ m', Steps S schedule m m' ∧ m'.phase = .returned) ∧
    (∀ m, Steps S schedule (start ws s) m → m.phase = .returned →
      m.channel = [] ∧
        (∃ waits, S.delayed.EndLasts (s, waits) ∧
          m.completed = runUpdates schedule 0
            (Session.run S.delayed schedule ws (s, waits)).results ∧
          m.state = (Session.run S.delayed schedule ws (s, waits)).state.1) ∧
        m.completed.Pairwise Before ∧
        (m.received = m.completed ∨
          ∃ u cause, m.completed = m.received ++ [u] ∧ (S.check m.state).1 = some cause)) ∧
    ∃ m, Steps S schedule (start ws s) m ∧ m.phase = .returned ∧
      m.completed = runUpdates schedule 0 (Session.run S schedule ws s).results ∧
      m.received = updates (Session.run S schedule ws s).notices := by
  have hsound : ∀ m, Steps S schedule (start ws s) m → Sound S s m :=
    fun m hm => (sound_start S ws s).steps hS hm
  refine ⟨fun m hm => ?_, fun m hm hphase => ?_, exists_steps_run S schedule ws s⟩
  · have h := hsound m hm
    exact ⟨h.length_le, h.kept.isPrefix, fun hclosed m' hm' => (h.steps_of_closed hS hclosed hm').2,
      h.exists_returned hS⟩
  · obtain ⟨hempty, hreceived⟩ := (hsound m hm).received_of_returned hphase
    obtain ⟨waits, hcompleted, hstate⟩ := completed_of_returned hm hphase
    exact ⟨hempty, ⟨waits, hS.delayed waits, hcompleted, hstate⟩,
      hcompleted ▸ pairwise_runUpdates _, hreceived⟩

/-- A session that is canceled during the second run of its workload, whose update need not be
received. -/
theorem delivery_of_cancel :
    ∃ m, Steps World.surroundings ⟨3, 1⟩
        (start [{ name := "slow", plan := fun _ => .always { takes := 5 } }]
          { canceled := some ⟨7⟩ }) m ∧
      m.phase = .returned ∧ m.completed.map (·.run) = [1, 2] ∧ m.received.map (·.run) = [1] := by
  obtain ⟨-, -, m, hsteps, hphase, hcompleted, hreceived⟩ := delivery World.surroundings ⟨3, 1⟩
    [{ name := "slow", plan := fun _ => .always { takes := 5 } }] { canceled := some ⟨7⟩ }
    (World.lawful_surroundings rfl).endLasts
  exact ⟨m, hsteps, hphase, by rw [hcompleted]; rfl, by rw [hreceived]; rfl⟩

end Relay

end Session

end Stopwatch
