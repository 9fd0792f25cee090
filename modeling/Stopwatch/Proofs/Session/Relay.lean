import Mathlib.Logic.Relation
import Stopwatch.Proofs.Session.Workloads

/-!
# A session and its display

While a session times its workloads, a display shows the progress. The two run side by side, and a
channel with room for a few updates lies between them. A `Relay` is the state of both and of the
channel; `Relay.Step` says what each of them can do next, in any order:

* the session looks, times and sends as `Session.runFrom` does. Sending waits until there is room in
  the channel or the session has ended, and if both hold it may go either way. Time passes while it
  waits;
* the display takes the oldest update out of the channel, or sees that it is closed and empty;
* after the last workload the session closes the channel and waits for the display, and then
returns.

`Sound` is what holds in all states that can come about: at most one update was not sent, and if
there is one then it is that of the last completed run and the session has ended. From each of these
states the session can still return (`exists_returned`), so the two never wait for each other.
-/

namespace Stopwatch.Session

variable {σ : Type}

/-! ## States -/

/-- A benchmark that has begun, and what is left of its session. -/
structure Underway where
  index : Int
  workload : Workload
  /-- What the clock said at its beginning. -/
  begun : Moment
  /-- The workloads after it. -/
  rest : List Workload

/-- Where a session is. -/
inductive Phase where
  /-- The workloads that are left are to come, the first of which has the given place. -/
  | next (index : Int) (ws : List Workload)
  /-- The runs that are left of a benchmark are to be made after the first `done`. -/
  | laps (b : Underway) (left done : Nat)
  /-- A run was completed, and its update is to be sent. -/
  | sending (b : Underway) (left done : Nat) (u : Progress.Update)
  /-- The channel is closed, and the display has to come to its end. -/
  | waiting
  | returned

/-- The update that waits to be sent. -/
def Phase.pending : Phase → List Progress.Update
  | sending _ _ _ u => [u]
  | _ => []

/-- How much a session has to do at most. A run counts for three: it is made, its update is sent,
and the display takes it. -/
def Phase.size (runs : Nat) : Phase → Nat
  | next _ ws => ws.length * (3 * runs + 3) + 3
  | laps b left _ => b.rest.length * (3 * runs + 3) + 3 * left + 5
  | sending b left _ _ => b.rest.length * (3 * runs + 3) + 3 * left + 7
  | waiting => 2
  | returned => 0

/-- A session, its display, and the channel between them. -/
structure Relay (σ : Type) where
  phase : Phase
  /-- What the session finds around it. -/
  state : σ
  /-- The updates of all runs that were completed. -/
  completed : List Progress.Update := []
  /-- What is in the channel, the oldest update first. -/
  channel : List Progress.Update := []
  closed : Bool := false
  /-- What the display took out of the channel, in order. -/
  received : List Progress.Update := []
  /-- The display has seen that the channel is closed and empty. -/
  finished : Bool := false

namespace Relay

/-- The number of updates the channel has room for. -/
def room : Nat := 16

/-- A session that is to begin. -/
def start (ws : List Workload) (s : σ) : Relay σ := { phase := .next 0 ws, state := s }

/-- All updates that were ever sent. -/
def sent (m : Relay σ) : List Progress.Update := m.received ++ m.channel

/-! ## Steps -/

/-- What the session or the display can do next. -/
inductive Step (S : Surroundings σ) (schedule : Schedule) : Relay σ → Relay σ → Prop where
  /-- The session has ended, and the next workload is not begun. -/
  | skip {m : Relay σ} {index : Int} {w : Workload} {ws : List Workload}
      {cause : Fault} {checked : σ} (phase : m.phase = .next index (w :: ws))
      (check : S.check m.state = (some cause, checked)) :
      Step S schedule m { m with phase := .next (index + 1) ws, state := checked }
  /-- The schedule does not fit the next workload. -/
  | refuse {m : Relay σ} {index : Int} {w : Workload} {ws : List Workload}
      {fault : Fault} {checked : σ} (phase : m.phase = .next index (w :: ws))
      (check : S.check m.state = (none, checked))
      (refusal : Benchmark.refusal? schedule w = some fault) :
      Step S schedule m { m with phase := .next (index + 1) ws, state := checked }
  /-- A benchmark begins. -/
  | begin {m : Relay σ} {index : Int} {w : Workload} {ws : List Workload} {checked : σ}
      (phase : m.phase = .next index (w :: ws)) (check : S.check m.state = (none, checked))
      (refusal : Benchmark.refusal? schedule w = none) :
      Step S schedule m { m with
        phase := .laps ⟨index, w, (S.clock checked).1, ws⟩ schedule.runs.toNat 0
        state := (S.clock checked).2 }
  /-- A run is made. -/
  | run {m : Relay σ} {b : Underway} {left done : Nat} {checked timed : σ}
      {reply : Reply} {sample : Duration} {u : Progress.Update}
      (phase : m.phase = .laps b (left + 1) done) (check : S.check m.state = (none, checked))
      (time : S.time (b.workload.plan (Benchmark.iterationsOf schedule b.workload)) done checked =
        ((reply, sample), timed))
      (update : u = .ofRun b.index b.workload.name (done + 1) schedule.runs sample) :
      Step S schedule m { m with
        phase := .sending b left (done + 1) u, state := timed, completed := m.completed ++ [u] }
  /-- The session has ended, and the runs that are left are not made. -/
  | stop {m : Relay σ} {b : Underway} {left done : Nat} {cause : Fault} {checked : σ}
      (phase : m.phase = .laps b (left + 1) done)
      (check : S.check m.state = (some cause, checked)) :
      Step S schedule m
        { m with phase := .next (b.index + 1) b.rest, state := (S.elapsed b.begun checked).2 }
  /-- All runs of a benchmark have been made. -/
  | finish {m : Relay σ} {b : Underway} {done : Nat} (phase : m.phase = .laps b 0 done) :
      Step S schedule m
        { m with phase := .next (b.index + 1) b.rest, state := (S.elapsed b.begun m.state).2 }
  /-- Time passes while an update waits to be sent. -/
  | wait {m : Relay σ} {b : Underway} {left done : Nat} {u : Progress.Update}
      (phase : m.phase = .sending b left done u) :
      Step S schedule m { m with state := (S.check m.state).2 }
  /-- There is room for the update. That the channel is open is not asked for. -/
  | send {m : Relay σ} {b : Underway} {left done : Nat} {u : Progress.Update}
      (phase : m.phase = .sending b left done u) (free : m.channel.length < room) :
      Step S schedule m { m with phase := .laps b left done, channel := m.channel ++ [u] }
  /-- The session has ended, and the update is not sent. -/
  | giveUp {m : Relay σ} {b : Underway} {left done : Nat} {u : Progress.Update} {cause : Fault}
      (phase : m.phase = .sending b left done u) (ended : (S.check m.state).1 = some cause) :
      Step S schedule m { m with phase := .laps b left done }
  /-- No workloads are left. -/
  | close {m : Relay σ} {index : Int} (phase : m.phase = .next index []) :
      Step S schedule m { m with phase := .waiting, closed := true }
  /-- The display takes the oldest update. -/
  | receive {m : Relay σ} {u : Progress.Update} {rest : List Progress.Update}
      (channel : m.channel = u :: rest) :
      Step S schedule m { m with channel := rest, received := m.received ++ [u] }
  /-- The display sees that no update will come any more. -/
  | see {m : Relay σ} (channel : m.channel = []) (closed : m.closed = true) :
      Step S schedule m { m with finished := true }
  /-- The display has come to its end, and the session returns. -/
  | leave {m : Relay σ} (phase : m.phase = .waiting) (finished : m.finished = true) :
      Step S schedule m { m with phase := .returned }

/-- Any number of steps. -/
abbrev Steps (S : Surroundings σ) (schedule : Schedule) : Relay σ → Relay σ → Prop :=
  Relation.ReflTransGen (Step S schedule)

/-! ## What holds in every state -/

variable {S : Surroundings σ} {schedule : Schedule} {s : σ} {m m' : Relay σ}

/-- What was completed was sent, or is to be sent next, except for one last update once the session
has ended. -/
def Kept (S : Surroundings σ) (m : Relay σ) : Prop :=
  m.completed = m.sent ++ m.phase.pending ∨
    m.phase.pending = [] ∧ ∃ u cause, m.completed = m.sent ++ [u] ∧ (S.check m.state).1 = some cause

/-- What holds in every state that can come about. -/
structure Sound (S : Surroundings σ) (s : σ) (m : Relay σ) : Prop where
  reaches : S.Reaches s m.state
  length_le : m.channel.length ≤ room
  closed_iff : m.closed = true ↔ m.phase = .waiting ∨ m.phase = .returned
  empty_of_finished : m.finished = true → m.closed = true ∧ m.channel = []
  finished_of_returned : m.phase = .returned → m.finished = true
  kept : Kept S m

theorem sound_start (S : Surroundings σ) (ws : List Workload) (s : σ) : Sound S s (start ws s) where
  reaches := .refl
  length_le := Nat.zero_le _
  closed_iff := by simp [start]
  empty_of_finished h := by simp [start] at h
  finished_of_returned h := by simp [start] at h
  kept := .inl rfl

theorem Step.reaches (h : Step S schedule m m') : S.Reaches m.state m'.state := by
  cases h with
  | skip _ check => exact reaches_checked check
  | refuse _ check _ => exact reaches_checked check
  | begin _ check _ => exact (reaches_checked check).clock
  | @run b _ done checked _ _ _ _ _ check time _ =>
    have htimed : S.Reaches m.state
        (S.time (b.workload.plan (Benchmark.iterationsOf schedule b.workload)) done checked).2 :=
      ((reaches_checked check).clock.call _ _).elapsed _
    rwa [time] at htimed
  | stop _ check => exact (reaches_checked check).elapsed _
  | finish _ => exact .elapsed _ .refl
  | wait _ => exact .check .refl
  | _ => exact .refl

/-- A step that sends nothing and completes nothing. -/
theorem Kept.of_eq (h : Kept S m) (hS : S.EndLasts m.state) (hreaches : S.Reaches m.state m'.state)
    (hcompleted : m'.completed = m.completed) (hsent : m'.sent = m.sent)
    (hpending : m'.phase.pending = m.phase.pending) : Kept S m' := by
  rcases h with heq | ⟨hnone, u, cause, heq, hend⟩
  · exact .inl (by rw [hcompleted, hsent, hpending, heq])
  · exact .inr ⟨by rw [hpending, hnone], u, cause, by rw [hcompleted, hsent, heq],
      hS .refl hreaches hend⟩

theorem Kept.step (h : Kept S m) (hS : S.EndLasts m.state) (hstep : Step S schedule m m') :
    Kept S m' := by
  have hreaches := hstep.reaches
  cases hstep with
  | run phase check _ _ =>
    -- The session had not ended when the run began, so nothing was given up before.
    rcases h with heq | ⟨-, u, cause, -, hend⟩
    · have hnone : m.phase.pending = [] := by rw [phase]; rfl
      rw [hnone, List.append_nil] at heq
      exact .inl (congrArg (· ++ [_]) heq)
    · rw [check] at hend
      exact absurd hend (by simp)
  | send phase _ =>
    rcases h with heq | ⟨hnone, -⟩
    · rw [phase] at heq
      exact .inl (by simpa [Phase.pending, sent] using heq)
    · rw [phase] at hnone
      exact absurd hnone (by simp [Phase.pending])
  | @giveUp _ _ _ u cause phase ended =>
    rcases h with heq | ⟨hnone, -⟩
    · rw [phase] at heq
      exact .inr ⟨rfl, u, cause, heq, ended⟩
    · rw [phase] at hnone
      exact absurd hnone (by simp [Phase.pending])
  | receive channel => exact h.of_eq hS hreaches rfl (by simp [sent, channel]) rfl
  | wait _ => exact h.of_eq hS hreaches rfl rfl rfl
  | see _ _ => exact h.of_eq hS hreaches rfl rfl rfl
  | skip phase _ => exact h.of_eq hS hreaches rfl rfl (by rw [phase]; rfl)
  | refuse phase _ _ => exact h.of_eq hS hreaches rfl rfl (by rw [phase]; rfl)
  | begin phase _ _ => exact h.of_eq hS hreaches rfl rfl (by rw [phase]; rfl)
  | stop phase _ => exact h.of_eq hS hreaches rfl rfl (by rw [phase]; rfl)
  | finish phase => exact h.of_eq hS hreaches rfl rfl (by rw [phase]; rfl)
  | close phase => exact h.of_eq hS hreaches rfl rfl (by rw [phase]; rfl)
  | leave phase _ => exact h.of_eq hS hreaches rfl rfl (by rw [phase]; rfl)

theorem Sound.step (h : Sound S s m) (hS : S.EndLasts s) (hstep : Step S schedule m m') :
    Sound S s m' where
  reaches := h.reaches.trans hstep.reaches
  length_le := by
    cases hstep with
    | send _ free => simpa using Nat.succ_le_of_lt free
    | receive channel =>
      have hle := h.length_le
      rw [channel] at hle
      exact Nat.le_of_succ_le hle
    | _ => exact h.length_le
  closed_iff := by
    have hclosed := h.closed_iff
    cases hstep <;> simp_all
  empty_of_finished := by
    have hclosed := h.closed_iff
    have hempty := h.empty_of_finished
    cases hstep <;> simp_all
  finished_of_returned := by
    have hfinished := h.finished_of_returned
    cases hstep <;> simp_all
  kept := h.kept.step (hS.of_reaches h.reaches) hstep

theorem Sound.steps (h : Sound S s m) (hS : S.EndLasts s) (hsteps : Steps S schedule m m') :
    Sound S s m' := by
  induction hsteps with
  | refl => exact h
  | tail _ hstep ih => exact ih.step hS hstep

/-! ## A closed channel -/

theorem Sound.step_of_closed (h : Sound S s m) (hclosed : m.closed = true)
    (hstep : Step S schedule m m') :
    m'.closed = true ∧ m'.sent = m.sent := by
  have hphase := h.closed_iff.mp hclosed
  cases hstep with
  | receive channel => exact ⟨hclosed, by simp [sent, channel]⟩
  | send phase _ => simp [phase] at hphase
  | close _ => exact ⟨rfl, rfl⟩
  | _ => exact ⟨hclosed, rfl⟩

/-- **Nothing is sent once the channel is closed.** -/
theorem Sound.steps_of_closed (h : Sound S s m) (hS : S.EndLasts s) (hclosed : m.closed = true)
    (hsteps : Steps S schedule m m') : m'.closed = true ∧ m'.sent = m.sent := by
  induction hsteps with
  | refl => exact ⟨hclosed, rfl⟩
  | tail hsteps hstep ih =>
    obtain ⟨hclosed', hsent⟩ := (h.steps hS hsteps).step_of_closed ih.1 hstep
    exact ⟨hclosed', hsent.trans ih.2⟩

/-! ## The way to the end -/

/-- How much the session and the display have to do at most. -/
def size (runs : Nat) (m : Relay σ) : Nat :=
  m.phase.size runs + m.channel.length + if m.finished then 0 else 1

/-- A session that has not returned can go on, and this brings it nearer to its end. -/
theorem Sound.exists_step (schedule : Schedule) (h : Sound S s m) (hphase : m.phase ≠ .returned) :
    ∃ m', Step S schedule m m' ∧ m'.size schedule.runs.toNat < m.size schedule.runs.toNat := by
  cases hp : m.phase with
  | next index ws =>
    cases ws with
    | nil =>
      exact ⟨_, .close hp, by simp [size, hp, Phase.size]⟩
    | cons w ws =>
      rcases hcheck : S.check m.state with ⟨_ | cause, checked⟩
      · cases hr : Benchmark.refusal? schedule w with
        | some fault => exact ⟨_, .refuse hp hcheck hr, by simp [size, hp, Phase.size, Nat.add_mul]⟩
        | none => exact ⟨_, .begin hp hcheck hr, by simp [size, hp, Phase.size, Nat.add_mul]; omega⟩
      · exact ⟨_, .skip hp hcheck, by simp [size, hp, Phase.size, Nat.add_mul]⟩
  | laps b left done =>
    cases left with
    | zero => exact ⟨_, .finish hp, by simp [size, hp, Phase.size]⟩
    | succ left =>
      rcases hcheck : S.check m.state with ⟨_ | cause, checked⟩
      · exact ⟨_, .run hp hcheck rfl rfl, by simp [size, hp, Phase.size]; omega⟩
      · exact ⟨_, .stop hp hcheck, by simp [size, hp, Phase.size]; omega⟩
  | sending b left done u =>
    -- If there is no room then the display can make some.
    by_cases hroom : m.channel.length < room
    · exact ⟨_, .send hp hroom, by simp [size, hp, Phase.size]; omega⟩
    · obtain ⟨v, rest, hchannel⟩ : ∃ v rest, m.channel = v :: rest :=
        List.exists_cons_of_length_pos (by simp [room] at hroom; omega)
      exact ⟨_, .receive hchannel, by simp [size, hchannel]⟩
  | waiting =>
    have hclosed := h.closed_iff.mpr (.inl hp)
    by_cases hfinished : m.finished = true
    · exact ⟨_, .leave hp hfinished, by simp [size, hp, Phase.size]⟩
    · cases hchannel : m.channel with
      | nil => exact ⟨_, .see hchannel hclosed, by simp [size, hfinished]⟩
      | cons v rest => exact ⟨_, .receive hchannel, by simp [size, hchannel]⟩
  | returned => exact absurd hp hphase

/-- **The session can always return.** -/
theorem Sound.exists_returned (h : Sound S s m) (hS : S.EndLasts s) :
    ∃ m', Steps S schedule m m' ∧ m'.phase = .returned := by
  induction hn : m.size schedule.runs.toNat using Nat.strong_induction_on generalizing m with
  | _ n ih =>
    by_cases hphase : m.phase = .returned
    · exact ⟨m, .refl, hphase⟩
    · obtain ⟨next, hstep, hlt⟩ := h.exists_step schedule hphase
      obtain ⟨last, hsteps, hreturned⟩ := ih _ (hn ▸ hlt) (h.step hS hstep) rfl
      exact ⟨last, hsteps.head hstep, hreturned⟩

end Relay

end Stopwatch.Session
