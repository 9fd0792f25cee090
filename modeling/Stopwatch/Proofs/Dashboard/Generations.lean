import Mathlib.Tactic.SplitIfs
import Stopwatch.Dashboard

/-!
# Generations of a dashboard

A restart cancels the session of the current generation, and what that session still tells comes in
later, at any time. The messages that end a session say which generation they belong to; those about
runs, results and failures do not, and are taken for the current session's. So the panels of a
dashboard can show an earlier generation (`panels_of_stale_failure`).

`panels_isolated_iff` says exactly when they do not. From the opening, or from a restart on, the
panels are those of a dashboard to which no message of an earlier generation is delivered, if and
only if none is delivered that shows (`Shows`). What was delivered before a restart does not matter.
-/

namespace Stopwatch.Dashboard

/-! ## Deliveries -/

/-- What a session tells. -/
inductive Report where
  | progress (p : RunProgress)
  | progressDone
  | comparison (p : Presentation) (results : List Result)
  | result (p : Presentation) (r : Result)
  | failure (spent : Duration) (f : Option Fault)
  | complete (exit : ExitCode) (results : List Result)
  | cutShort (cause : Option Fault)

/-- What comes from elsewhere. -/
inductive Input where
  | key (name : Text)
  | resize (w : Window)
  | tick
  | memory (m : MemoryFigures)
  | load (cpu memory : Float)
  | unknown

/-- A message on its way to the dashboard. -/
inductive Event where
  | input (time : Moment) (i : Input)
  /-- The session of a generation tells something. -/
  | report (time : Moment) (generation : UInt64) (r : Report)

/-- The message of a report. Only those that end a session say its generation. -/
def Report.message (generation : UInt64) : Report → Message
  | progress p => .progress p
  | progressDone => .progressDone
  | comparison p results => .comparison p results
  | result p r => .result p r
  | failure spent f => .failure spent f
  | complete exit results => .complete generation exit results
  | cutShort cause => .cutShort generation cause

/-- The message of an input. -/
def Input.message : Input → Message
  | key name => .key name
  | resize w => .resize w
  | tick => .tick
  | memory m => .memory m
  | load cpu mem => .load cpu mem
  | unknown => .unknown

/-- Delivers a message. -/
def deliver (b : Dashboard) : Event → Dashboard
  | .input time i => (b.update time i.message).1
  | .report time generation r => (b.update time (r.message generation)).1

/-- Delivers messages in order. -/
def deliverAll (b : Dashboard) (es : List Event) : Dashboard := es.foldl deliver b

/-- True of what a session of another generation than the current one tells. -/
def isStale (b : Dashboard) : Event → Bool
  | .input .. => false
  | .report _ generation _ => generation != b.generation

/-- Delivers a message unless it is stale. -/
def deliverCurrent (b : Dashboard) (e : Event) : Dashboard := if b.isStale e then b else b.deliver e

/-- Delivers the messages that are not stale when their turn comes. -/
def deliverCurrentAll (b : Dashboard) (es : List Event) : Dashboard := es.foldl deliverCurrent b

/-- The key that restarts the session. -/
def restartKey (time : Moment) : Event := .input time (.key "r")

/-! ## Panels -/

/-- What the panels of a dashboard show of a session. -/
structure Panels where
  /-- The status at the bottom. -/
  status : Status
  /-- The lines of the log. -/
  entries : List Text
  /-- The summary of the current benchmark. -/
  summary : Summary
  /-- The run times of the chart. -/
  samples : List Float
  /-- The progress of the chart. -/
  progress : Float
  /-- The run on top: its workload, its number and how many are planned. -/
  run : Text × Int × Int

def panels (b : Dashboard) : Panels where
  status := b.status
  entries := b.log.entries
  summary := b.figures.summary
  samples := b.chart.samples.toList
  progress := b.chart.progress
  run := (b.title.workload, b.title.run, b.title.runs)

/-- True of a report that changes what the panels show, whatever generation it belongs to. A run
always does; a result or a failure does unless the log is full and looks the same with the new
lines. -/
def Shows (b : Dashboard) : Event → Prop
  | .report _ _ (.progress _) => True
  | .report time _ (.comparison p results) =>
    (b.log.addAll time (RunLog.comparisonLines p results)).entries ≠ b.log.entries
  | .report time _ (.result p r) =>
    (b.log.addAll time (RunLog.resultLines p r)).entries ≠ b.log.entries
  | .report time _ (.failure spent f) =>
    b.failed = false ∨ (b.log.add time (RunLog.failureLine spent f)).entries ≠ b.log.entries
  | _ => False

/-- No stale message that is delivered shows at its delivery. -/
def StaleUnseen (b : Dashboard) (es : List Event) : Prop :=
  ∀ before e after, es = before ++ e :: after → (b.deliverAll before).isStale e = true →
    ¬ (b.deliverAll before).Shows e

variable {a b c : Dashboard} {e : Event} {es : List Event}

theorem deliverAll_append (b : Dashboard) (es fs : List Event) :
    b.deliverAll (es ++ fs) = (b.deliverAll es).deliverAll fs := List.foldl_append

theorem deliverCurrentAll_append (b : Dashboard) (es fs : List Event) :
    b.deliverCurrentAll (es ++ fs) =
      (b.deliverCurrentAll es).deliverCurrentAll fs := List.foldl_append

/-! ## What a session cannot touch -/

/-- What no session changes: the setup, the generation and the room for run times. -/
def frame (b : Dashboard) : Setup × UInt64 × Nat :=
  (b.setup, b.generation, b.chart.samples.capacity)

theorem frame_report (b : Dashboard) (time : Moment) (g : UInt64) (r : Report) :
    (b.deliver (.report time g r)).frame = b.frame := by
  cases r with
  | progress p =>
    simp only [deliver, Report.message, update, frame, Dashboard.progress,
      Chart.add, Ring.capacity_push]
    split_ifs <;> rfl
  | progressDone => rfl
  | comparison p results => simp only [deliver, Report.message, update, frame]
  | result p r => simp only [deliver, Report.message, update, frame]
  | failure spent f => simp only [deliver, Report.message, update, frame]
  | complete exit results =>
    simp only [deliver, Report.message, update]
    split_ifs <;> rfl
  | cutShort cause =>
    simp only [deliver, Report.message, update]
    split_ifs <;> rfl

/-- What an input does to the frame is decided by the frame. -/
theorem frame_input (h : a.frame = c.frame) (time : Moment) (i : Input) :
    (a.deliver (.input time i)).frame = (c.deliver (.input time i)).frame := by
  cases i with
  | key name =>
    simp only [deliver, Input.message, update]
    cases Action.ofKey? name with
    | none => exact h
    | some action =>
      cases action with
      | restart =>
        -- The only input that touches the frame: it adds one to the generation.
        obtain ⟨h1, h2, h3⟩ : a.setup = c.setup ∧ a.generation = c.generation ∧
          a.chart.samples.capacity = c.chart.samples.capacity := by simpa [frame] using h
        simp only [act, restart, frame, Chart.clear, Ring.capacity_clear, h1, h2, h3]
      | _ => exact h
  | resize w =>
    have hfit : ∀ b : Dashboard, (b.resize w).frame = b.frame := by
      intro b
      simp only [Dashboard.resize, frame, Chart.fit]
      split_ifs <;> rfl
    exact (hfit a).trans (h.trans (hfit c).symm)
  | tick => exact h
  | memory m => exact h
  | load cpu mem => exact h
  | unknown => exact h

theorem frame_deliver (h : a.frame = c.frame) (e : Event) :
    (a.deliver e).frame = (c.deliver e).frame := by
  cases e with
  | input time i => exact frame_input h time i
  | report time g r => rw [frame_report, frame_report, h]

theorem frame_deliverCurrent (h : a.frame = c.frame) (e : Event) :
    (a.deliver e).frame = (c.deliverCurrent e).frame := by
  unfold deliverCurrent
  split_ifs with hs
  · cases e with
    | input time i => exact absurd hs (by simp [isStale])
    | report time g r => rw [frame_report, h]
  · exact frame_deliver h e

/-- Skipping stale messages does not change the frame. -/
theorem frame_deliverAll (h : a.frame = c.frame) (es : List Event) :
    (a.deliverAll es).frame = (c.deliverCurrentAll es).frame := by
  induction es generalizing a c with
  | nil => exact h
  | cons e es ih => exact ih (frame_deliverCurrent h e)

theorem generation_eq (h : a.frame = c.frame) : a.generation = c.generation :=
  (Prod.mk.inj (Prod.mk.inj h).2).1

theorem isStale_eq (h : a.frame = c.frame) (e : Event) : a.isStale e = c.isStale e := by
  cases e with
  | input time i => rfl
  | report time g r => simp only [isStale, generation_eq h]

/-! ## Dashboards that look alike -/

/-- The dashboards show the same and go on to show the same. -/
structure Alike (a c : Dashboard) : Prop where
  frame : a.frame = c.frame
  entries : a.log.entries = c.log.entries
  workload : a.figures.workload = c.figures.workload
  figures : a.figures.samples = c.figures.samples
  summary : a.figures.summary = c.figures.summary
  samples : a.chart.samples.toList = c.chart.samples.toList
  progress : a.chart.progress = c.chart.progress
  run : (a.title.workload, a.title.run, a.title.runs) =
    (c.title.workload, c.title.run, c.title.runs)
  done : a.done = c.done
  paused : a.paused = c.paused
  failed : a.failed = c.failed

theorem Alike.refl (b : Dashboard) : Alike b b :=
  ⟨rfl, rfl, rfl, rfl, rfl, rfl, rfl, rfl, rfl, rfl, rfl⟩

theorem Alike.trans (h₁ : Alike a b) (h₂ : Alike b c) : Alike a c where
  frame := h₁.frame.trans h₂.frame
  entries := h₁.entries.trans h₂.entries
  workload := h₁.workload.trans h₂.workload
  figures := h₁.figures.trans h₂.figures
  summary := h₁.summary.trans h₂.summary
  samples := h₁.samples.trans h₂.samples
  progress := h₁.progress.trans h₂.progress
  run := h₁.run.trans h₂.run
  done := h₁.done.trans h₂.done
  paused := h₁.paused.trans h₂.paused
  failed := h₁.failed.trans h₂.failed

theorem Alike.panels (h : Alike a c) : a.panels = c.panels := by
  simp only [Dashboard.panels, status, h.entries, h.summary, h.samples, h.progress,
    h.run, h.done, h.paused, h.failed]

theorem entries_add {l k : RunLog} (h : l.entries = k.entries) (time : Moment) (line : Text) :
    (l.add time line).entries = (k.add time line).entries := by
  simp only [RunLog.add, h]

theorem entries_addAll {l k : RunLog} (h : l.entries = k.entries)
    (time : Moment) (lines : List Text) :
    (l.addAll time lines).entries = (k.addAll time lines).entries := by
  induction lines generalizing l k with
  | nil => exact h
  | cons line lines ih =>
    simp only [RunLog.addAll, List.foldl_cons] at ih ⊢
    exact ih (entries_add h time line)

/-- **A restart makes dashboards with one frame look alike.** -/
theorem alike_restart (h : a.frame = c.frame) (time : Moment) :
    Alike (a.deliver (restartKey time)) (c.deliver (restartKey time)) where
  frame := frame_deliver h _
  entries := rfl
  workload := rfl
  figures := rfl
  summary := rfl
  samples := rfl
  progress := rfl
  run := rfl
  done := rfl
  paused := rfl
  failed := rfl

theorem unit_eq (h : a.frame = c.frame) : a.unit = c.unit := by
  rw [unit, unit, (Prod.mk.inj h).1]

/-- A run is taken into account alike. -/
theorem Alike.deliver_progress (h : Alike a c) (time : Moment) (g : UInt64) (p : RunProgress) :
    Alike (a.deliver (.report time g (.progress p)))
      (c.deliver (.report time g (.progress p))) := by
  have hcap : a.chart.samples.capacity = c.chart.samples.capacity :=
    (Prod.mk.inj (Prod.mk.inj h.frame).2).2
  have hchart : (if p.run == 1 then a.chart.begin else a.chart).samples.toList =
      (if p.run == 1 then c.chart.begin else c.chart).samples.toList ∧
      (if p.run == 1 then a.chart.begin else a.chart).samples.capacity =
      (if p.run == 1 then c.chart.begin else c.chart).samples.capacity := by
    split_ifs
    · exact ⟨rfl, hcap⟩
    · exact ⟨h.samples, hcap⟩
  refine
    { frame := frame_deliver h.frame _, entries := ?_, workload := rfl, figures := ?_,
      summary := ?_, samples := ?_,
      progress := rfl, run := rfl, done := h.done, paused := h.paused, failed := h.failed }
  · simp only [deliver, Report.message, update, Dashboard.progress, h.paused, unit_eq h.frame]
    split_ifs
    · exact h.entries
    · exact entries_add h.entries _ _
  · simp only [deliver, Report.message, update, Dashboard.progress, Figures.add, h.workload,
      h.figures, unit_eq h.frame]
  · simp only [deliver, Report.message, update, Dashboard.progress, Figures.add, h.workload,
      h.figures, unit_eq h.frame]
  · simp only [deliver, Report.message, update, Dashboard.progress, Chart.add,
      Ring.toList_push, hchart.1, hchart.2, unit_eq h.frame]

/-- **What looks alike still does after the same message.** -/
theorem Alike.deliver (h : Alike a c) (e : Event) : Alike (a.deliver e) (c.deliver e) := by
  have hgen := generation_eq h.frame
  have hframe := frame_deliver h.frame e
  cases e with
  | input time i =>
    cases i with
    | key name =>
      simp only [Dashboard.deliver, Input.message, update] at hframe ⊢
      cases hk : Action.ofKey? name with
      | none => exact h
      | some action =>
        simp only [hk] at hframe
        cases action with
        | quit => exact { h with frame := hframe }
        | pause => exact { h with frame := hframe, paused := by simp only [act, h.paused] }
        | restart => exact ⟨hframe, rfl, rfl, rfl, rfl, rfl, rfl, rfl, rfl, rfl, rfl⟩
        | up => exact { h with frame := hframe }
        | down => exact { h with frame := hframe }
        | pageUp => exact { h with frame := hframe }
        | pageDown => exact { h with frame := hframe }
    | resize w =>
      have hfit : ∀ b : Dashboard, (b.resize w).chart.samples = b.chart.samples ∧
          (b.resize w).chart.progress = b.chart.progress := by
        intro b
        simp only [Dashboard.resize, Chart.fit]
        split_ifs <;> exact ⟨rfl, rfl⟩
      simp only [Dashboard.deliver, Input.message, update] at hframe ⊢
      exact { h with
        frame := hframe
        samples := by rw [(hfit a).1, (hfit c).1, h.samples]
        progress := by rw [(hfit a).2, (hfit c).2, h.progress] }
    | tick => exact h
    | memory m => exact { h with frame := hframe }
    | load cpu mem => exact { h with frame := hframe }
    | unknown => exact h
  | report time g r =>
    cases r with
    | progress p => exact h.deliver_progress time g p
    | progressDone => exact h
    | comparison p results =>
      exact { h with frame := hframe, entries := entries_addAll h.entries _ _ }
    | result p r => exact { h with frame := hframe, entries := entries_addAll h.entries _ _ }
    | failure spent f =>
      have hlog := entries_add h.entries time (RunLog.failureLine spent f)
      simp only [Dashboard.deliver, Report.message, update] at hframe ⊢
      exact { h with frame := hframe, entries := hlog, failed := rfl }
    | complete exit results =>
      simp only [Dashboard.deliver, Report.message, update, hgen] at hframe ⊢
      split_ifs at hframe ⊢
      · exact { h with frame := hframe, progress := rfl, done := rfl }
      · exact h
    | cutShort cause =>
      simp only [Dashboard.deliver, Report.message, update, hgen] at hframe ⊢
      split_ifs at hframe ⊢
      · exact { h with frame := hframe, done := rfl }
      · exact h

/-! ## Stale messages -/

/-- The line on top and the figures name the same workload, and the figures sum up the samples that
they keep. -/
structure Coherent (b : Dashboard) : Prop where
  workload : b.title.workload = b.figures.workload
  summed : b.figures.Summed

theorem Coherent.deliver (h : b.Coherent) (e : Event) : (b.deliver e).Coherent := by
  cases e with
  | input time i =>
    cases i with
    | key name =>
      simp only [Dashboard.deliver, Input.message, update]
      cases Action.ofKey? name with
      | none => exact h
      | some action =>
        cases action with
        | restart => exact ⟨rfl, Figures.summed_empty⟩
        | _ => exact ⟨h.workload, h.summed⟩
    | _ => exact ⟨h.workload, h.summed⟩
  | report time g r =>
    cases r with
    | progress p => exact ⟨rfl, Figures.summed_add ..⟩
    | complete exit results =>
      simp only [Dashboard.deliver, Report.message, update]
      split_ifs <;> exact ⟨h.workload, h.summed⟩
    | cutShort cause =>
      simp only [Dashboard.deliver, Report.message, update]
      split_ifs <;> exact ⟨h.workload, h.summed⟩
    | _ =>
      simp only [Dashboard.deliver, Report.message, update]
      exact ⟨h.workload, h.summed⟩

theorem Coherent.deliverAll (h : b.Coherent) (es : List Event) : (b.deliverAll es).Coherent := by
  induction es generalizing b with
  | nil => exact h
  | cons e es ih => exact ih (h.deliver e)

/-- A run changes the summary, or the workload on top. -/
theorem panels_progress_ne (h : b.Coherent) (time : Moment) (g : UInt64) (p : RunProgress) :
    (b.deliver (.report time g (.progress p))).panels ≠ b.panels := by
  intro heq
  -- As long as the workload stays, the summary counts one more sample.
  have hrun : p.workload = b.title.workload := congrArg (fun q => q.run.1) heq
  have hsummary : (b.figures.add b.unit p).summary.n = b.figures.summary.n :=
    congrArg (fun q => q.summary.n) heq
  rw [Figures.summed_add, h.summed, Summary.n_ofSamples, Summary.n_ofSamples] at hsummary
  simp only [Figures.add, hrun.trans h.workload, beq_self_eq_true, if_true, List.length_append,
    List.length_singleton] at hsummary
  omega

/-- A message that shows changes the panels. -/
theorem panels_ne_of_shows (hb : b.Coherent) (h : b.Shows e) : (b.deliver e).panels ≠ b.panels := by
  cases e with
  | input time i => exact absurd h id
  | report time g r =>
    cases r with
    | progress p => exact panels_progress_ne hb time g p
    | comparison p results => exact fun heq => h (congrArg Panels.entries heq)
    | result p r => exact fun heq => h (congrArg Panels.entries heq)
    | failure spent f =>
      simp only [deliver, Report.message, update, Shows] at h ⊢
      generalize b.log.add time (RunLog.failureLine spent f) = log at h ⊢
      intro heq
      rcases h with h | h
      · have hstatus : Status.failed = b.status := congrArg Panels.status heq
        unfold status at hstatus
        rw [h] at hstatus
        split_ifs at hstatus <;> contradiction
      · exact h (congrArg Panels.entries heq)
    | progressDone => exact absurd h id
    | complete exit results => exact absurd h id
    | cutShort cause => exact absurd h id

/-- A stale message that does not show leaves no trace. -/
theorem alike_of_not_shows (hs : b.isStale e = true) (h : ¬ b.Shows e) : Alike (b.deliver e) b := by
  cases e with
  | input time i => exact absurd hs (by simp [isStale])
  | report time g r =>
    have hg : (g == b.generation) = false := by simpa [isStale] using hs
    have hframe := frame_report b time g r
    cases r with
    | progress p => exact absurd trivial h
    | progressDone => exact .refl b
    | comparison p results =>
      exact { Alike.refl b with frame := hframe, entries := Classical.not_not.mp h }
    | result p r => exact { Alike.refl b with frame := hframe, entries := Classical.not_not.mp h }
    | failure spent f =>
      simp only [deliver, Report.message, update, Shows, not_or] at h hframe ⊢
      generalize b.log.add time (RunLog.failureLine spent f) = log at h hframe ⊢
      exact { Alike.refl b with
        frame := hframe
        entries := Classical.not_not.mp h.2
        failed := (eq_true_of_ne_false h.1).symm }
    | complete exit results =>
      simp only [deliver, Report.message, update, hg]
      exact .refl b
    | cutShort cause =>
      simp only [deliver, Report.message, update, hg]
      exact .refl b

theorem StaleUnseen.tail (h : StaleUnseen b (e :: es)) : StaleUnseen (b.deliver e) es := by
  intro before f after heq
  have := h (e :: before) f after (by rw [heq]; rfl)
  exact this

/-- As long as no stale message shows, skipping the stale messages makes no difference. -/
theorem Alike.deliverAll (h : Alike a c) (hu : StaleUnseen a es) :
    Alike (a.deliverAll es) (c.deliverCurrentAll es) := by
  induction es generalizing a c with
  | nil => exact h
  | cons e es ih =>
    have hstale := isStale_eq h.frame e
    refine ih (a := a.deliver e) (c := c.deliverCurrent e) ?_ hu.tail
    unfold deliverCurrent
    split_ifs with hs
    · rw [← hstale] at hs
      exact (alike_of_not_shows hs (hu [] e es rfl hs)).trans h
    · exact h.deliver e

theorem StaleUnseen.of_isPrefix {fs : List Event} (h : StaleUnseen b fs) (hp : es <+: fs) :
    StaleUnseen b es := by
  obtain ⟨rest, rfl⟩ := hp
  intro before e after heq
  exact h before e (after ++ rest) (by rw [heq, List.append_assoc, List.cons_append])

/-- Dashboards that look alike go on to do so, one of them skipping stale messages, exactly as long
as none of these shows. -/
theorem panels_eq_iff (h : Alike a c) (ha : a.Coherent) (later : List Event) :
    (∀ es, es <+: later → (a.deliverAll es).panels = (c.deliverCurrentAll es).panels) ↔
      StaleUnseen a later := by
  constructor
  · intro hall before e after heq hs hshows
    have hstale : (c.deliverCurrentAll before).isStale e = true := by
      rw [← isStale_eq (frame_deliverAll h.frame before) e]
      exact hs
    have h1 := hall before ⟨e :: after, heq.symm⟩
    have h2 := hall (before ++ [e]) ⟨after, by rw [heq, List.append_assoc]; rfl⟩
    rw [deliverAll_append, deliverCurrentAll_append] at h2
    -- The stale message is skipped on one side and shows on the other.
    have h3 : ((c.deliverCurrentAll before).deliverCurrentAll [e]) =
        c.deliverCurrentAll before := by
      show (c.deliverCurrentAll before).deliverCurrent e = _
      rw [deliverCurrent, if_pos hstale]
    rw [h3, ← h1] at h2
    exact panels_ne_of_shows (ha.deliverAll before) hshows h2
  · intro hu es hp
    exact (h.deliverAll (hu.of_isPrefix hp)).panels

/-- **The panels are isolated from other generations exactly as long as no stale message shows**,
from any state of a dashboard on, and afresh from every restart on. -/
theorem panels_isolated_iff (setup : Setup) (opened : Moment) (history : List Event) :
    let b := (fresh setup opened).deliverAll history
    (∀ later, (∀ es, es <+: later → (b.deliverAll es).panels = (b.deliverCurrentAll es).panels) ↔
        StaleUnseen b later) ∧
      ∀ earlier time later,
        (∀ es, es <+: later → (b.deliverAll (earlier ++ restartKey time :: es)).panels =
          (b.deliverCurrentAll (earlier ++ restartKey time :: es)).panels) ↔
        StaleUnseen (b.deliverAll (earlier ++ [restartKey time])) later := by
  intro b
  have hfresh : (fresh setup opened).Coherent := ⟨rfl, Figures.summed_empty⟩
  have hb : b.Coherent := hfresh.deliverAll history
  refine ⟨fun later => panels_eq_iff (.refl b) hb later, fun earlier time later => ?_⟩
  have hrestart := alike_restart (frame_deliverAll (rfl : b.frame = b.frame) earlier) time
  have hnames := (hb.deliverAll earlier).deliver (restartKey time)
  have hafter : b.deliverAll (earlier ++ [restartKey time]) =
      (b.deliverAll earlier).deliver (restartKey time) :=
    deliverAll_append b earlier [restartKey time]
  rw [hafter, ← panels_eq_iff hrestart hnames later]
  simp only [deliverAll_append, deliverCurrentAll_append]
  rfl

/-- A session that was canceled by a restart tells of its failure, and the panels differ: the new
session counts as failed instead of running. -/
theorem panels_of_stale_failure :
    let failure : Event := .report .origin 0 (.failure 0 (some (.benchmark "sieve" .canceled)))
    let b := fresh {} .origin
    (b.deliverAll [restartKey .origin, failure]).panels ≠
      (b.deliverCurrentAll [restartKey .origin, failure]).panels := by
  intro failure b heq
  have hshown : (b.deliverAll [restartKey .origin, failure]).panels.status = .failed := by decide
  have hright : (b.deliverCurrentAll [restartKey .origin, failure]).panels.status = .running := by
    decide
  rw [heq, hright] at hshown
  exact absurd hshown (by decide)

end Stopwatch.Dashboard
