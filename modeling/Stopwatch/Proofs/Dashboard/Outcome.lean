import Mathlib.Tactic.SplitIfs
import Stopwatch.Proofs.Dashboard.Generations

/-!
# The outcome of a session on the dashboard

Three things decide the exit code of the current generation: the key that quits, the end of the
session from outside, and its completion. A key and an end from outside leave a code alone that has
been decided; a completion does not look whether there is one, and puts its own code in its place
(`exit_overruled`). And a key that quits decides the code without marking the session as done, so
that an end from outside can still change it.

`exit_stays_iff` says exactly when a code that has been decided stays. Everything rests on
`outcome_deliver`: of what is delivered, only the ruling counts (`ruling`), and what a ruling does
is decided by the outcome alone.
-/

namespace Stopwatch.Dashboard

/-! ## Rulings -/

/-- What a message has to say about the outcome. -/
inductive Ruling where
  /-- Nothing. -/
  | none
  /-- The user quits. -/
  | quit
  /-- The user begins a new generation. -/
  | restart
  /-- The current session is complete. -/
  | complete (exit : ExitCode) (results : List Result)
  /-- The current session was ended from outside. -/
  | cutShort (cause : Option Fault)

/-- The ruling of a message while a generation is the current one. -/
def ruling (generation : UInt64) : Event → Ruling
  | .input _ (.key name) =>
    match Action.ofKey? name with
    | some .quit => .quit
    | some .restart => .restart
    | _ => .none
  | .report _ g (.complete exit results) =>
    if g == generation then .complete exit results else .none
  | .report _ g (.cutShort cause) => if g == generation then .cutShort cause else .none
  | _ => .none

/-- What is known of a session's end. -/
structure Outcome where
  generation : UInt64
  done : Bool
  exit : ExitCode
  results : List Result

def outcome (b : Dashboard) : Outcome := ⟨b.generation, b.done, b.exit, b.results⟩

/-- The outcome after a ruling. -/
def Outcome.after (o : Outcome) : Ruling → Outcome
  | .none => o
  | .quit => { o with exit := if o.done then o.exit else ExitCode.canceled }
  | .restart => ⟨o.generation + 1, false, ExitCode.success, []⟩
  | .complete exit results => { o with done := true, exit, results }
  | .cutShort cause =>
    { o with done := true, exit := if o.done then o.exit else Fault.exitCodeOf cause }

variable {b c : Dashboard} {e : Event} {es later : List Event}

/-- **Of a message only its ruling counts for the outcome.** -/
theorem outcome_deliver (b : Dashboard) (e : Event) :
    (b.deliver e).outcome = b.outcome.after (ruling b.generation e) := by
  cases e with
  | input time i =>
    cases i with
    | key name =>
      simp only [deliver, Input.message, update, ruling]
      cases Action.ofKey? name with
      | none => rfl
      | some action => cases action <;> rfl
    | _ => rfl
  | report time g r =>
    cases r with
    | complete exit results =>
      simp only [deliver, Report.message, update, ruling]
      split_ifs <;> rfl
    | cutShort cause =>
      simp only [deliver, Report.message, update, ruling]
      split_ifs <;> rfl
    | failure spent f => simp only [deliver, Report.message, update, outcome, ruling, Outcome.after]
    | _ => rfl

theorem generation_deliver (h : ruling b.generation e ≠ .restart) :
    (b.deliver e).generation = b.generation := by
  have heq : (b.deliver e).outcome.generation = _ :=
    congrArg Outcome.generation (outcome_deliver b e)
  refine heq.trans ?_
  cases hr : ruling b.generation e with
  | restart => exact absurd hr h
  | _ => rfl

/-! ## Decisions -/

/-- A message that decides the outcome of the current generation: the session is complete or was
ended from outside, or the user quits before that. -/
def Decides (b : Dashboard) (e : Event) : Prop :=
  match ruling b.generation e with
  | .quit => b.done = false
  | .complete _ _ => True
  | .cutShort _ => True
  | _ => False

/-- The code of a session that is not done has been decided by a key. -/
def Settled (b : Dashboard) : Prop := b.done = false → b.exit = ExitCode.canceled

theorem settled_of_decides (h : b.Decides e) : (b.deliver e).Settled := by
  have ho := outcome_deliver b e
  intro hdone
  have hd : (b.deliver e).outcome.done = false := hdone
  have hx : (b.deliver e).exit = (b.deliver e).outcome.exit := rfl
  rw [hx, ho]
  rw [ho] at hd
  unfold Decides at h
  cases hr : ruling b.generation e with
  | quit =>
    rw [hr] at h
    simp only [Outcome.after, outcome, h, Bool.false_eq_true, if_false]
  | none => rw [hr] at h; exact h.elim
  | restart => rw [hr] at h; exact h.elim
  | complete exit results => rw [hr] at hd; exact absurd hd (by simp [Outcome.after])
  | cutShort cause => rw [hr] at hd; exact absurd hd (by simp [Outcome.after])

/-- No message of the current generation contradicts the exit code: no completion reports another
one, and if the session is not done, the first message that ends it does not either. -/
def Upheld (b : Dashboard) (later : List Event) : Prop :=
  (∀ e ∈ later, ∀ exit results, ruling b.generation e = .complete exit results → exit = b.exit) ∧
    (b.done = false → ∀ before e after cause, later = before ++ e :: after →
      (∀ x ∈ before, ruling b.generation x = .none ∨ ruling b.generation x = .quit) →
      ruling b.generation e = .cutShort cause → Fault.exitCodeOf cause = b.exit)

/-- A message that is no restart leaves the code of a settled session alone, exactly if it does not
contradict it. -/
theorem exit_deliver_iff (h : b.Settled) (hr : ruling b.generation e ≠ .restart) :
    (b.deliver e).exit = b.exit ↔
      (∀ exit results, ruling b.generation e = .complete exit results → exit = b.exit) ∧
        (b.done = false → ∀ cause, ruling b.generation e = .cutShort cause →
          Fault.exitCodeOf cause = b.exit) := by
  have ho : (b.deliver e).exit = (b.outcome.after (ruling b.generation e)).exit :=
    congrArg Outcome.exit (outcome_deliver b e)
  rw [ho]
  cases hrule : ruling b.generation e with
  | none => simp [Outcome.after, outcome]
  | restart => exact absurd hrule hr
  | quit =>
    cases hd : b.done with
    | true => simp [Outcome.after, outcome, hd]
    | false => simp [Outcome.after, outcome, hd, h hd]
  | complete exit results => simp [Outcome.after]
  | cutShort cause =>
    cases hd : b.done with
    | true => simp [Outcome.after, outcome, hd]
    | false => simp [Outcome.after, outcome, hd]

/-- A session becomes done by the messages that end it. -/
theorem done_deliver_iff (hr : ruling b.generation e ≠ .restart) :
    (b.deliver e).done = false ↔
      b.done = false ∧ (ruling b.generation e = .none ∨ ruling b.generation e = .quit) := by
  have ho : (b.deliver e).done = (b.outcome.after (ruling b.generation e)).done :=
    congrArg Outcome.done (outcome_deliver b e)
  rw [ho]
  cases hrule : ruling b.generation e with
  | restart => exact absurd hrule hr
  | _ => simp [Outcome.after, outcome]

theorem Settled.deliver (h : b.Settled) (hr : ruling b.generation e ≠ .restart) :
    (b.deliver e).Settled := by
  intro hd
  obtain ⟨hdone, hrule⟩ := (done_deliver_iff hr).mp hd
  have hexit : (b.deliver e).exit = b.exit := by
    rw [exit_deliver_iff h hr]
    rcases hrule with hrule | hrule <;> simp [hrule]
  rw [hexit, h hdone]

/-- The first of some messages is upheld by itself, and the others by what it leaves. -/
theorem upheld_cons_iff (h : b.Settled) (hr : ruling b.generation e ≠ .restart) :
    b.Upheld (e :: later) ↔ (b.deliver e).exit = b.exit ∧ (b.deliver e).Upheld later := by
  have hgen := generation_deliver hr
  constructor
  · rintro ⟨hcomplete, hcut⟩
    have hexit : (b.deliver e).exit = b.exit := by
      refine (exit_deliver_iff h hr).mpr ⟨hcomplete e List.mem_cons_self, fun hd cause hrule => ?_⟩
      exact hcut hd [] e later cause rfl (List.forall_mem_nil _) hrule
    refine ⟨hexit, fun x hx => ?_, fun hd before x after cause heq hbefore => ?_⟩
    · rw [hgen, hexit]
      exact hcomplete x (List.mem_cons_of_mem e hx)
    · obtain ⟨hdone, hrule⟩ := (done_deliver_iff hr).mp hd
      rw [hgen] at hbefore ⊢
      rw [hexit]
      exact hcut hdone (e :: before) x after cause (by rw [heq]; rfl)
        (List.forall_mem_cons.mpr ⟨hrule, hbefore⟩)
  · rintro ⟨hexit, hcomplete, hcut⟩
    rw [hgen, hexit] at hcomplete hcut
    obtain ⟨hfirst, hfirstCut⟩ := (exit_deliver_iff h hr).mp hexit
    refine ⟨List.forall_mem_cons.mpr ⟨hfirst, hcomplete⟩,
      fun hd before x after cause heq hbefore hrule => ?_⟩
    cases before with
    | nil =>
      obtain ⟨rfl, -⟩ := List.cons.inj heq
      exact hfirstCut hd cause hrule
    | cons y before =>
      obtain ⟨rfl, hrest⟩ := List.cons.inj heq
      obtain ⟨hy, hbefore⟩ := List.forall_mem_cons.mp hbefore
      exact hcut ((done_deliver_iff hr).mpr ⟨hd, hy⟩) before x after cause hrest hbefore hrule

/-- The key that restarts the session is the only way to another generation. -/
def Restarts : Event → Prop
  | .input _ (.key name) => Action.ofKey? name = some .restart
  | _ => False

theorem ruling_ne_restart (h : ¬ Restarts e) (g : UInt64) : ruling g e ≠ .restart := by
  cases e with
  | input time i =>
    cases i with
    | key name =>
      simp only [Restarts, ruling] at h ⊢
      cases hk : Action.ofKey? name with
      | none => simp
      | some action =>
        cases action with
        | restart => exact absurd hk h
        | _ => simp
    | _ => simp [ruling]
  | report time g' r =>
    cases r with
    | complete exit results => simp only [ruling]; split_ifs <;> simp
    | cutShort cause => simp only [ruling]; split_ifs <;> simp
    | _ => simp [ruling]

/-- The code of a settled session stays, exactly as long as it is upheld. -/
theorem Settled.exit_stays_iff_upheld (h : b.Settled) (hr : ∀ e ∈ later, ¬ Restarts e) :
    (∀ es, es <+: later → (b.deliverAll es).exit = b.exit) ↔ b.Upheld later := by
  induction later generalizing b with
  | nil =>
    refine
      ⟨fun _ => ⟨List.forall_mem_nil _, fun _ before e after _ heq => absurd heq (by simp)⟩, ?_⟩
    rintro - es hp
    obtain rfl := List.prefix_nil.mp hp
    rfl
  | cons e later ih =>
    obtain ⟨hre, hrl⟩ := List.forall_mem_cons.mp hr
    have hrule := ruling_ne_restart hre b.generation
    rw [upheld_cons_iff h hrule, ← ih (h.deliver hrule) hrl]
    constructor
    · intro hall
      have hexit : (b.deliver e).exit = b.exit := hall [e] ⟨later, rfl⟩
      refine ⟨hexit, fun es hp => ?_⟩
      rw [hexit]
      exact hall (e :: es) (List.cons_prefix_cons.mpr ⟨rfl, hp⟩)
    · rintro ⟨hexit, hall⟩ es hp
      cases es with
      | nil => rfl
      | cons x es =>
        obtain ⟨rfl, htail⟩ := List.cons_prefix_cons.mp hp
        exact (hall es htail).trans hexit

/-- A decision leaves the session running only if the user quits. -/
theorem done_of_decides_iff (h : b.Decides e) : (b.deliver e).done = false ↔
    ruling b.generation e = .quit := by
  unfold Decides at h
  have hr : ruling b.generation e ≠ .restart := by
    intro hrule
    rw [hrule] at h
    exact h
  rw [done_deliver_iff hr]
  cases hrule : ruling b.generation e <;> rw [hrule] at h <;> simp_all

/-- **A decided exit code stays exactly as long as no message of the current session contradicts
it.** The message that decides may come in any state of a dashboard, and anything but a restart may
follow. If the session is done after the decision, only a completion can contradict it, and
otherwise the user has quit and an end from outside can do so, too. -/
theorem exit_stays_iff (setup : Setup) (opened : Moment) (history : List Event) (decision : Event)
    (later : List Event) (hdecides : ((fresh setup opened).deliverAll history).Decides decision)
    (hr : ∀ e ∈ later, ¬ Restarts e) :
    let b := (fresh setup opened).deliverAll history
    let decided := b.deliver decision
    (decided.done = false ↔ ruling b.generation decision = .quit) ∧
      ((∀ es, es <+: later → (decided.deliverAll es).exit = decided.exit) ↔ decided.Upheld later) :=
  ⟨done_of_decides_iff hdecides, (settled_of_decides hdecides).exit_stays_iff_upheld hr⟩

/-- The session runs out of time, and neither its own completion with the same code nor the key that
quits changes the code. -/
theorem exit_stays_of_deadline :
    let cut : Event := .report .origin 0 (.cutShort (some .deadline))
    let later : List Event :=
      [.input .origin (.key "q"), .report .origin 0 (.complete ExitCode.timedOut [])]
    ∀ es, es <+: later → (((fresh {} .origin).deliver cut).deliverAll es).exit =
      ExitCode.timedOut := by
  intro cut later
  have hdecides : (fresh {} .origin).Decides cut := trivial
  have hr : ∀ e ∈ later, ¬ Restarts e := by
    simp only [later, List.forall_mem_cons]
    exact ⟨by unfold Restarts; decide, id, List.forall_mem_nil _⟩
  refine (exit_stays_iff {} .origin [] cut later hdecides hr).2.mpr ⟨?_,
    fun hd => absurd hd (by decide)⟩
  simp only [later, List.forall_mem_cons]
  refine ⟨fun exit results h => ?_, fun exit results h => ?_, List.forall_mem_nil _⟩
  · have hquit : ruling 0 (.input .origin (.key "q")) = .quit := rfl
    exact absurd (hquit.symm.trans h) (by simp)
  · obtain ⟨rfl, -⟩ := Ruling.complete.inj h
    rfl

/-- A session runs out of time during its last run, which is completed all the same: the code of the
completion takes the place of the one that had been decided. So it does after the key that quits. -/
theorem exit_overruled :
    let cut : Event := .report .origin 0 (.cutShort (some .deadline))
    let quit : Event := .input .origin (.key "q")
    let complete : Event := .report .origin 0 (.complete ExitCode.success [])
    let b := fresh {} .origin
    (b.Decides cut ∧ (b.deliverAll [cut]).exit = ExitCode.timedOut ∧
        (b.deliverAll [cut, complete]).exit = ExitCode.success) ∧
      b.Decides quit ∧ (b.deliverAll [quit]).exit = ExitCode.canceled ∧
        (b.deliverAll [quit, complete]).exit = ExitCode.success := by
  intro cut quit complete b
  refine ⟨⟨trivial, by decide, by decide⟩, ?_, by decide, by decide⟩
  have hquit : ruling b.generation quit = .quit := by rfl
  unfold Decides
  rw [hquit]
  rfl

end Stopwatch.Dashboard
