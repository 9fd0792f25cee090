import Mathlib.Data.Int.Order.Basic
import Mathlib.Data.List.Basic
import Mathlib.Order.Nat
import Stopwatch.Proofs.Dashboard.Isolation

/-!
# Ticks of a dashboard

A dashboard asks for a tick when it is opened, when a tick comes while its session goes on, and when
it is restarted. `Clockwork` is a dashboard together with the ticks that it has asked for and that
have not come yet, and `Run` is all that can happen to it: messages and keys come in any order, and
a tick comes at any time after it is due.

Each restart adds a tick to those that are outstanding, and only a tick that comes after the end of
its session asks for no other (`Step.length_due`). So a dashboard waits for more than one tick, and
samples the host more often than once in a period, exactly from the moment on at which it is
restarted before the tick of the last session has come to rest (`one_tick_iff`).
-/

namespace Stopwatch.Dashboard

/-- The moment of a delivery. -/
def Event.time : Event → Moment
  | .input time _ => time
  | .report time _ _ => time

/-- True of a tick. -/
def Event.isTick : Event → Bool
  | .input _ .tick => true
  | _ => false

instance : DecidablePred Restarts
  | .input _ (.key name) => inferInstanceAs (Decidable (Action.ofKey? name = some .restart))
  | .input _ (.resize _) => isFalse id
  | .input _ .tick => isFalse id
  | .input _ (.memory _) => isFalse id
  | .input _ (.load ..) => isFalse id
  | .input _ .unknown => isFalse id
  | .report .. => isFalse id

theorem isTick_of_restarts {e : Event} (h : Restarts e) : e.isTick = false := by
  cases e with
  | input time i =>
    cases i with
    | tick => exact h.elim
    | _ => rfl
  | report time g r => rfl

/-- When the ticks that are asked for at a moment are due. -/
def dueAfter (time : Moment) (effects : List Effect) : List Moment :=
  List.replicate (effects.count .tick) (time.after period)

theorem dueAfter_nil (time : Moment) : dueAfter time [] = [] := rfl

/-- A dashboard that waits for ticks. -/
structure Clockwork where
  board : Dashboard
  /-- The moment of the last delivery. -/
  now : Moment
  /-- When the outstanding ticks are due. -/
  due : List Moment

namespace Clockwork

/-- A dashboard that has just been opened. -/
def opened (setup : Setup) (time : Moment) : Clockwork :=
  ⟨fresh setup time, time, dueAfter time (opening 0)⟩

/-- Delivers a message, and starts to wait for the ticks that are asked for. -/
def deliver (c : Clockwork) (e : Event) : Clockwork :=
  ⟨c.board.deliver e, e.time, c.due ++ dueAfter e.time (c.board.asked e)⟩

/-- What can happen next: an outstanding tick comes, not before it is due, or there is some other
message. -/
inductive Step (c : Clockwork) : Event → Clockwork → Prop
  | tick (time t : Moment) : c.now.ns ≤ time.ns → t ∈ c.due → t.ns ≤ time.ns →
    Step c (.input time .tick) ({ c with due := c.due.erase t }.deliver (.input time .tick))
  | message (e : Event) : c.now.ns ≤ e.time.ns → e.isTick = false → Step c e (c.deliver e)

/-- A run, given by what was delivered, each time with the state before it. -/
inductive Run (first : Clockwork) : List (Clockwork × Event) → Clockwork → Prop
  | nil : Run first [] first
  | snoc {history : List (Clockwork × Event)} {c c' : Clockwork} {e : Event} :
    Run first history c → Step c e c' → Run first (history ++ [(c, e)]) c'

/-- True of a tick that comes when the session is done. It is the last one of its kind. -/
def isLast (p : Clockwork × Event) : Bool := p.2.isTick && p.1.board.done

/-- No more than one tick is outstanding at any time of a run. -/
def OneTick (history : List (Clockwork × Event)) (c : Clockwork) : Prop :=
  (∀ p ∈ history, p.1.due.length ≤ 1) ∧ c.due.length ≤ 1

/-- The dashboard is restarted only when no tick is outstanding. -/
def RestartsAtRest (history : List (Clockwork × Event)) : Prop :=
  ∀ p ∈ history, Restarts p.2 → p.1.due = []

/-- The moments at which the load of the host is sampled. -/
def samples (history : List (Clockwork × Event)) : List Moment :=
  (history.filter fun p => Effect.sampleLoad ∈ p.1.board.asked p.2).map fun p => p.2.time

variable {first c c' : Clockwork} {e : Event} {history : List (Clockwork × Event)}
    {setup : Setup} {time : Moment}

/-! ## One delivery -/

/-- **What is asked for**: a tick may ask for samples and another tick, a restart opens a new
generation, and nothing else has to do with ticks and samples. -/
theorem asked_cases (b : Dashboard) (e : Event) :
    (e.isTick = true ∧ ¬ Restarts e ∧ b.asked e = b.onTick) ∨
    (e.isTick = false ∧ Restarts e ∧ b.asked e = .stop b.generation :: opening (b.generation + 1)) ∨
    (e.isTick = false ∧ ¬ Restarts e ∧ ∀ x ∈ b.asked e, x = .quit ∨ x = .stop b.generation) := by
  cases e with
  | input time i =>
    cases i with
    | tick => exact .inl ⟨rfl, id, rfl⟩
    | key name =>
      simp only [asked, Input.message, update, Event.isTick, Restarts]
      cases Action.ofKey? name with
      | none => simp
      | some action => cases action <;> simp [act, restart]
    | _ => exact .inr (.inr ⟨rfl, id, List.forall_mem_nil _⟩)
  | report time g r =>
    refine .inr (.inr ⟨rfl, id, ?_⟩)
    cases r with
    | complete exit results =>
      simp only [asked, Report.message, update]
      split_ifs <;> simp
    | cutShort cause =>
      simp only [asked, Report.message, update]
      split_ifs <;> simp
    | _ => simp [asked, Report.message, update]

theorem count_tick_asked (b : Dashboard) (e : Event) :
    (b.asked e).count .tick =
      (if Restarts e then 1 else 0) + if e.isTick && !b.done then 1 else 0 := by
  rcases asked_cases b e with ⟨htick, hr, heq⟩ | ⟨htick, hr, heq⟩ | ⟨htick, hr, hall⟩
  · rw [heq, if_neg hr, htick, onTick]
    cases b.done <;> cases b.paused <;> rfl
  · rw [heq, if_pos hr, htick]
    rfl
  · rw [if_neg hr, htick]
    exact List.count_eq_zero.mpr fun hmem => absurd (hall .tick hmem) (by simp)

theorem sampleLoad_mem_asked_iff (b : Dashboard) (e : Event) :
    Effect.sampleLoad ∈ b.asked e ↔ e.isTick = true ∧ b.done = false ∧ b.paused = false := by
  rcases asked_cases b e with ⟨htick, -, heq⟩ | ⟨htick, -, heq⟩ | ⟨htick, -, hall⟩
  · rw [heq, htick, onTick]
    cases b.done <;> cases b.paused <;> simp
  · rw [heq, htick]
    simp [opening]
  · rw [htick]
    exact iff_of_false (fun hmem => absurd (hall _ hmem) (by simp)) (by simp)

theorem Step.now_eq (h : Step c e c') : c'.now = e.time := by
  cases h <;> rfl

theorem Step.now_le (h : Step c e c') : c.now.ns ≤ e.time.ns := by
  cases h with
  | tick _ _ hnow => exact hnow
  | message _ hnow => exact hnow

theorem Step.board_eq (h : Step c e c') : c'.board = c.board.deliver e := by
  cases h <;> rfl

/-- **The number of outstanding ticks**: a restart adds one, and the last tick of a session takes
one away. -/
theorem Step.length_due (h : Step c e c') :
    c'.due.length + (if isLast (c, e) then 1 else 0) = c.due.length +
      if Restarts e then 1 else 0 := by
  cases h with
  | tick time t _ hmem _ =>
    -- The tick is taken off the list, and another takes its place unless the session is done.
    have hpos := List.length_pos_of_mem hmem
    have hr : ¬ Restarts (.input time .tick) := id
    have hlast : isLast (c, .input time .tick) = c.board.done := Bool.true_and _
    have hcount := count_tick_asked c.board (.input time .tick)
    rw [if_neg hr, Event.isTick, Bool.true_and] at hcount
    simp only [deliver, dueAfter, List.length_append, List.length_erase_of_mem hmem,
      List.length_replicate, hcount, hlast, if_neg hr]
    cases c.board.done <;> simp <;> omega
  | message _ _ htick =>
    simp only [deliver, dueAfter, List.length_append, List.length_replicate,
      count_tick_asked, isLast, htick, Bool.false_and, Bool.false_eq_true, if_false, Nat.add_zero]

theorem Step.length_due_of_restarts (h : Step c e c') (hr : Restarts e) :
    c'.due.length = c.due.length + 1 := by
  have hlength := h.length_due
  simpa [isLast, isTick_of_restarts hr, hr] using hlength

theorem Step.length_due_le (h : Step c e c') (hr : ¬ Restarts e) :
    c'.due.length ≤ c.due.length := by
  have hlength := h.length_due
  rw [if_neg hr] at hlength
  omega

/-- A tick comes not before one is due. -/
theorem Step.exists_due (h : Step c e c') (htick : e.isTick = true) :
    ∃ t ∈ c.due, t.ns ≤ e.time.ns := by
  cases h with
  | tick time t _ hmem hle => exact ⟨t, hmem, hle⟩
  | message _ _ hnot => exact absurd (htick.symm.trans hnot) (by decide)

/-- As long as there is only one, the tick that comes is the one that was outstanding. -/
theorem Step.mem_due (h : Step c e c') (hone : c.due.length ≤ 1) {t : Moment} (ht : t ∈ c'.due) :
    t ∈ c.due ∧ e.isTick = false ∨ t = e.time.after period := by
  cases h with
  | tick time u _ hmem _ =>
    have hnil : c.due.erase u = [] := by
      rw [← List.length_eq_zero_iff, List.length_erase_of_mem hmem]
      omega
    simp only [deliver, hnil, List.nil_append] at ht
    exact .inr (List.eq_of_mem_replicate ht)
  | message _ _ htick =>
    rcases List.mem_append.mp ht with hin | hin
    · exact .inl ⟨hin, htick⟩
    · exact .inr (List.eq_of_mem_replicate hin)

/-- A session that goes on waits for a tick. -/
def Wound (c : Clockwork) : Prop := c.board.done = false → c.due ≠ []

theorem Step.wound (h : Step c e c') (hc : c.Wound) : c'.Wound := by
  intro hdone
  rw [← List.length_pos_iff]
  by_cases hr : Restarts e
  · rw [h.length_due_of_restarts hr]
    exact Nat.succ_pos _
  · rw [h.board_eq, done_deliver_iff (ruling_ne_restart hr _)] at hdone
    have hpos := List.length_pos_iff.mpr (hc hdone.1)
    have hlength := h.length_due
    simp only [isLast, hdone.1, Bool.and_false, Bool.false_eq_true, if_false, if_neg hr] at hlength
    omega

/-! ## All deliveries -/

theorem Run.wound (h : Run first history c) (hfirst : first.Wound) : c.Wound := by
  induction h with
  | nil => exact hfirst
  | snoc _ hstep ih => exact hstep.wound ih

theorem Run.length_due (h : Run first history c) :
    c.due.length + history.countP isLast = first.due.length +
      history.countP fun p => Restarts p.2 := by
  induction h with
  | nil => rfl
  | @snoc history c c' e _ hstep ih =>
    have hlength := hstep.length_due
    simp only [List.countP_append, List.countP_singleton, decide_eq_true_eq]
    omega

theorem oneTick_append : OneTick (history ++ [(c, e)]) c' ↔
    OneTick history c ∧ c'.due.length ≤ 1 := by
  simp only [OneTick, List.forall_mem_append, List.forall_mem_singleton]

/-- **There is never more than one outstanding tick exactly if the dashboard is restarted only at
rest.** -/
theorem Run.oneTick_iff (h : Run first history c) (hfirst : first.due.length ≤ 1) :
    OneTick history c ↔ RestartsAtRest history := by
  induction h with
  | nil => exact ⟨fun _ => List.forall_mem_nil _, fun _ => ⟨List.forall_mem_nil _, hfirst⟩⟩
  | @snoc history c c' e _ hstep ih =>
    rw [oneTick_append, ih]
    simp only [RestartsAtRest, List.forall_mem_append, List.forall_mem_singleton]
    refine and_congr_right fun hrest => ?_
    have hone := (ih.mpr hrest).2
    -- Only a restart makes two of one.
    by_cases hr : Restarts e
    · rw [hstep.length_due_of_restarts hr, ← List.length_eq_zero_iff]
      simp only [hr, forall_const]
      omega
    · exact iff_of_true ((hstep.length_due_le hr).trans hone) fun h => absurd h hr

/-- Samples that were taken a period apart, and so that the next tick is not due before another
period. -/
structure Paced (history : List (Clockwork × Event)) (c : Clockwork) : Prop where
  apart : (samples history).Pairwise fun s t => s.ns + period.toInt ≤ t.ns
  past : ∀ s ∈ samples history, s.ns ≤ c.now.ns
  due : ∀ s ∈ samples history, ∀ t ∈ c.due, s.ns + period.toInt ≤ t.ns

theorem samples_append (history : List (Clockwork × Event)) (c : Clockwork) (e : Event) :
    samples (history ++ [(c, e)]) =
      samples history ++
        if e.isTick = true ∧ c.board.done = false ∧ c.board.paused = false then [e.time]
        else [] := by
  simp only [samples, sampleLoad_mem_asked_iff, List.filter_append, List.map_append]
  split_ifs with h <;> simp [h]

/-- A sample was taken before, or is taken now, by a tick that comes at its time. -/
theorem mem_samples_append {s : Moment} (hs : s ∈ samples (history ++ [(c, e)])) :
    s ∈ samples history ∨ e.isTick = true ∧ s = e.time := by
  rw [samples_append] at hs
  rcases List.mem_append.mp hs with hin | hin
  · exact .inl hin
  · split_ifs at hin with htick
    · exact .inr ⟨htick.1, List.mem_singleton.mp hin⟩
    · exact absurd hin (by simp)

theorem Paced.step (h : Paced history c) (hone : c.due.length ≤ 1) (hstep : Step c e c') :
    Paced (history ++ [(c, e)]) c' where
  apart := by
    rw [samples_append, List.pairwise_append]
    refine ⟨h.apart, by split_ifs <;> simp, fun s hs t ht => ?_⟩
    split_ifs at ht with htick
    · -- The new sample is taken by a tick, which was due a period after the others at the earliest.
      obtain rfl := List.mem_singleton.mp ht
      obtain ⟨u, hu, hle⟩ := hstep.exists_due htick.1
      exact (h.due s hs u hu).trans hle
    · exact absurd ht (by simp)
  past s hs := by
    rw [hstep.now_eq]
    rcases mem_samples_append hs with hin | ⟨-, rfl⟩
    · exact (h.past s hin).trans hstep.now_le
    · exact le_rfl
  due s hs t ht := by
    have hpast : s.ns ≤ e.time.ns := by
      rcases mem_samples_append hs with hin | ⟨-, rfl⟩
      · exact (h.past s hin).trans hstep.now_le
      · exact le_rfl
    rcases hstep.mem_due hone ht with ⟨hin, hnot⟩ | rfl
    · rcases mem_samples_append hs with hs | ⟨htick, -⟩
      · exact h.due s hs t hin
      · exact absurd (htick.symm.trans hnot) (by decide)
    · exact Int.add_le_add_right hpast _

theorem Run.paced (h : Run first history c) (hone : OneTick history c) : Paced history c := by
  induction h with
  | nil => exact ⟨.nil, List.forall_mem_nil _, List.forall_mem_nil _⟩
  | @snoc history c c' e _ hstep ih =>
    have hone := (oneTick_append.mp hone).1
    exact (ih hone).step hone.2 hstep

/-- After the last tick of a session none is outstanding, until the next restart. -/
theorem Run.due_eq_nil (h : Run first history c) (hone : OneTick history c)
    {before after : List (Clockwork × Event)} {p : Clockwork × Event}
    (heq : history = before ++ p :: after) (hlast : isLast p = true)
    (hafter : ∀ q ∈ after, ¬ Restarts q.2) : c.due = [] := by
  induction h generalizing after with
  | nil => simp at heq
  | @snoc history c c' e _ hstep ih =>
    have hone := (oneTick_append.mp hone).1
    rcases after.eq_nil_or_concat' with rfl | ⟨after, q, rfl⟩
    · obtain ⟨-, hp⟩ := List.append_inj' heq rfl
      obtain rfl : (c, e) = p := (List.cons.inj hp).1
      have hr : ¬ Restarts e :=
        fun hr => absurd (isTick_of_restarts hr) (by simp [(Bool.and_eq_true_iff.mp hlast).1])
      have hlength := hstep.length_due
      rw [hlast, if_pos rfl, if_neg hr] at hlength
      have hle := hone.2
      exact List.length_eq_zero_iff.mp (by omega)
    · rw [← List.cons_append, ← List.append_assoc] at heq
      obtain ⟨hrest, hq⟩ := List.append_inj' heq rfl
      obtain rfl : (c, e) = q := (List.cons.inj hq).1
      obtain ⟨hafter, hr⟩ := List.forall_mem_append.mp hafter
      have hnil := ih hone hrest hafter
      have hle := hstep.length_due_le (hr (c, e) (List.mem_singleton_self _))
      exact List.length_eq_zero_iff.mp (by simpa [hnil] using hle)

/-- **One tick at a time.** In every run the outstanding ticks are counted by the restarts and by
the last ticks of sessions, and there is one as long as the session goes on. There is never more
than one exactly if the dashboard is restarted only when none is outstanding. If so, there is none
between the last tick of a session and the next restart, and the host is sampled at most once in a
period. -/
theorem one_tick_iff {setup : Setup} {time : Moment} (h : Run (opened setup time) history c) :
    (c.due.length + history.countP isLast = 1 + history.countP fun p => Restarts p.2) ∧
      (c.board.done = false → c.due ≠ []) ∧
      (OneTick history c ↔ RestartsAtRest history) ∧
      (RestartsAtRest history →
        (∀ before p after, history = before ++ p :: after → isLast p = true →
            (∀ q ∈ after, ¬ Restarts q.2) →
          c.due = []) ∧
        (samples history).Pairwise fun s t => s.ns + period.toInt ≤ t.ns) := by
  have hiff := h.oneTick_iff le_rfl
  refine ⟨h.length_due, h.wound fun _ => List.cons_ne_nil _ _, hiff, fun hrest => ⟨?_, ?_⟩⟩
  · intro before p after
    exact h.due_eq_nil (hiff.mpr hrest)
  · exact (h.paced (hiff.mpr hrest)).apart

/-- The dashboard is restarted after the last tick of a session that is done. -/
theorem one_tick_of_restart_at_rest :
    ∃ history c, Run (opened {} .origin) history c ∧
      (∃ p ∈ history, Restarts p.2) ∧ OneTick history c := by
  have h0 : Run (opened {} .origin) [] (opened {} .origin) := .nil
  have h1 :=
    h0.snoc (.message (.report ⟨200000000⟩ 0 (.complete ExitCode.success [])) (by decide) rfl)
  have h2 := h1.snoc (.tick ⟨500000000⟩ ⟨500000000⟩ (by decide) (by decide) (by decide))
  have h3 := h2.snoc (.message (restartKey ⟨700000000⟩) (by decide) rfl)
  refine ⟨_, _, h3, ⟨_, List.mem_append_right _ (List.mem_singleton_self _), rfl⟩,
    (one_tick_iff h3).2.2.1.mpr ?_⟩
  simp only [RestartsAtRest, List.forall_mem_append, List.forall_mem_singleton]
  exact ⟨⟨⟨List.forall_mem_nil _, fun hr => hr.elim⟩, fun hr => hr.elim⟩, fun _ => rfl⟩

/-- The dashboard is restarted before the first tick has come: it waits for two of them, and samples
the host twice in a tenth of a second. -/
theorem two_ticks_of_restart :
    ∃ history c, Run (opened {} .origin) history c ∧ c.due.length = 2 ∧
      samples history = [⟨500000000⟩, ⟨600000000⟩] := by
  have h0 : Run (opened {} .origin) [] (opened {} .origin) := .nil
  have h1 := h0.snoc (.message (restartKey ⟨100000000⟩) (by decide) rfl)
  have h2 := h1.snoc (.tick ⟨500000000⟩ ⟨500000000⟩ (by decide) (by decide) (by decide))
  have h3 := h2.snoc (.tick ⟨600000000⟩ ⟨600000000⟩ (by decide) (by decide) (by decide))
  exact ⟨_, _, h3, rfl, rfl⟩

end Clockwork

end Stopwatch.Dashboard
