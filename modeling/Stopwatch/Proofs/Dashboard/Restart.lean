import Mathlib.Tactic.SplitIfs
import Stopwatch.Proofs.Dashboard.Generations

/-!
# A restart and a fresh start

A restarted dashboard is a fresh one for the same setup, fitted to the window as it is, in all but
three respects (`restart_eq_fresh`): it belongs to the next generation, its log lacks the lines
about the session, with which a fresh log begins, and the histories of the load keep the room they
had if the window is too narrow to say how much they need. What came before leaves no other trace.

What can be said of every state of a dashboard is `Fitted`: the parts of it that a restart keeps are
those that the setup and the window ask for.
-/

namespace Stopwatch.Dashboard

variable {b : Dashboard} {setup : Setup}

/-- The dashboard fitted to a window, if its size is known. -/
def fitTo (b : Dashboard) : Option Window → Dashboard
  | none => b
  | some w => b.resize w

/-- What the chart shows, leaving out how the samples are stored. -/
def shown (c : Chart) : (List Float × List Float × List Float) × Float × Duration × Duration :=
  ((c.samples.toList, c.cpu.toList, c.memory.toList), c.progress, c.left, c.doneIn)

/-- The window says how much room the histories of the load need: it is wide enough, or its size is
not known and they are as they were made. -/
def Roomy : Option Window → Prop
  | none => True
  | some w => 0 < Chart.columns w.rightWidth

/-- The room for the histories of the load in a window. -/
def loadRoom : Option Window → Nat
  | none => Ring.cellsFor 120
  | some w => Ring.cellsFor (Chart.columns w.rightWidth)

/-! ## What a restart keeps -/

/-- The setup is the one given, and the panels are as large as the window asks for. -/
structure Fitted (setup : Setup) (b : Dashboard) : Prop where
  setup : b.setup = setup
  height : b.log.height = (b.window.map fun w => w.bodyHeight.toInt).getD 0
  samples : b.chart.samples.capacity = Ring.cellsFor 256
  load : Roomy b.window → b.chart.cpu.capacity = loadRoom b.window ∧
    b.chart.memory.capacity = loadRoom b.window

theorem fitted_fresh (setup : Setup) (opened : Moment) : Fitted setup (fresh setup opened) where
  setup := rfl
  height := rfl
  samples := rfl
  load _ := ⟨rfl, rfl⟩

/-- Adding a line changes the lines only. -/
theorem add_eq (log : RunLog) (now : Moment) (line : Text) :
    log.add now line = { log with entries := (log.add now line).entries } := by
  simp only [RunLog.add]

theorem addAll_eq (log : RunLog) (now : Moment) (lines : List Text) :
    log.addAll now lines = { log with entries := (log.addAll now lines).entries } := by
  induction lines generalizing log with
  | nil => rfl
  | cons line lines ih =>
    simp only [RunLog.addAll, List.foldl_cons] at ih ⊢
    rw [ih, add_eq]

theorem Fitted.resize (h : Fitted setup b) (w : Window) : Fitted setup (b.resize w) where
  setup := h.setup
  height := rfl
  samples := by
    simp only [Dashboard.resize, Chart.fit]
    split_ifs
    · exact h.samples
    · exact h.samples
  load hw := by
    have hcolumns : 0 < Chart.columns w.rightWidth := hw
    simp only [Dashboard.resize, Chart.fit, if_pos hcolumns, Ring.capacity_resize]
    exact ⟨rfl, rfl⟩

theorem Fitted.deliver (h : Fitted setup b) (e : Event) : Fitted setup (b.deliver e) := by
  cases e with
  | input time i =>
    cases i with
    | key name =>
      simp only [Dashboard.deliver, Input.message, update]
      cases Action.ofKey? name with
      | none => exact h
      | some action =>
        cases action with
        | restart => exact ⟨h.setup, h.height, h.samples, h.load⟩
        | _ => exact ⟨h.setup, h.height, h.samples, h.load⟩
    | resize w => exact h.resize w
    | _ => exact ⟨h.setup, h.height, h.samples, h.load⟩
  | report time g r =>
    cases r with
    | progress p =>
      refine ⟨h.setup, ?_, ?_, ?_⟩
      · simp only [Dashboard.deliver, Report.message, update, Dashboard.progress]
        split_ifs
        · exact h.height
        · rw [add_eq]
          exact h.height
      · simp only [Dashboard.deliver, Report.message, update, Dashboard.progress,
          Chart.add, Ring.capacity_push]
        split_ifs <;> exact h.samples
      · simp only [Dashboard.deliver, Report.message, update, Dashboard.progress, Chart.add]
        split_ifs <;> exact h.load
    | progressDone => exact h
    | comparison p results =>
      simp only [Dashboard.deliver, Report.message, update]
      rw [addAll_eq]
      exact ⟨h.setup, h.height, h.samples, h.load⟩
    | result p r =>
      simp only [Dashboard.deliver, Report.message, update]
      rw [addAll_eq]
      exact ⟨h.setup, h.height, h.samples, h.load⟩
    | failure spent f =>
      simp only [Dashboard.deliver, Report.message, update]
      rw [add_eq]
      exact ⟨h.setup, h.height, h.samples, h.load⟩
    | complete exit results =>
      simp only [Dashboard.deliver, Report.message, update]
      split_ifs
      · exact ⟨h.setup, h.height, h.samples, h.load⟩
      · exact h
    | cutShort cause =>
      simp only [Dashboard.deliver, Report.message, update]
      split_ifs
      · exact ⟨h.setup, h.height, h.samples, h.load⟩
      · exact h

theorem Fitted.deliverAll (h : Fitted setup b) (es : List Event) :
    Fitted setup (b.deliverAll es) := by
  induction es generalizing b with
  | nil => exact h
  | cons e es ih => exact ih (h.deliver e)

/-! ## The restart -/

theorem entries_add_of_lt (log : RunLog) (h : log.entries.length < RunLog.maxEntries)
    (now : Moment) (line : Text) :
    (log.add now line).entries = log.entries ++ [now.timeText ++ " " ++ line] := by
  have hdrop : (log.entries ++ [now.timeText ++ " " ++ line]).length - RunLog.maxEntries = 0 := by
    rw [List.length_append, List.length_singleton]
    omega
  simp only [RunLog.add, hdrop, List.drop_zero]

theorem entries_addAll_of_le {log : RunLog} {lines : List Text} (now : Moment)
    (h : log.entries.length + lines.length ≤ RunLog.maxEntries) :
    (log.addAll now lines).entries = log.entries ++ lines.map fun line =>
      now.timeText ++ " " ++ line := by
  induction lines generalizing log with
  | nil => rw [List.map_nil, List.append_nil]; rfl
  | cons line lines ih =>
    rw [List.length_cons] at h
    have hadd := entries_add_of_lt log (by omega) now line
    simp only [RunLog.addAll, List.foldl_cons] at ih ⊢
    rw [ih (by rw [hadd, List.length_append, List.length_singleton]; omega), hadd,
      List.append_assoc, List.map_cons, List.singleton_append]

/-- A fresh log holds the lines about the session, with the time at which it began. -/
theorem entries_fresh (setup : Setup) (now : Moment) :
    (fresh setup now).log.entries =
      (RunLog.sessionLines (setup.workloads.map Workload.name) setup.settings).map fun line =>
        now.timeText ++ " " ++ line :=
  entries_addAll_of_le now (by show 0 + 2 ≤ RunLog.maxEntries; decide)

theorem shown_fitTo (setup : Setup) (now : Moment) (window : Option Window) :
    shown ((fresh setup now).fitTo window).chart = (([], [], []), 0.0, 0, 0) := by
  cases window with
  | none => rfl
  | some w =>
    have hnone : ∀ n, Ring.newest n [] = [] := fun n => Ring.newest_of_length_le (Nat.zero_le n)
    simp only [fitTo, Dashboard.resize, Chart.fit, shown]
    split_ifs
    · simp only [Ring.toList_resize, fresh, Ring.toList_empty, hnone]
    · rfl

theorem log_fitTo (setup : Setup) (now : Moment) (window : Option Window) :
    ((fresh setup now).fitTo window).log =
      { entries := (fresh setup now).log.entries
        offset := 0
        height := (window.map fun w => w.bodyHeight.toInt).getD 0 } := by
  have hfresh : (fresh setup now).log = _ := addAll_eq {} now _
  cases window with
  | none => exact hfresh
  | some w =>
    simp only [fitTo, Dashboard.resize, Option.map_some, Option.getD_some]
    rw [hfresh]

/-- A fresh dashboard that is fitted to a window has nothing but its setup, its log and an empty
chart. -/
theorem fitTo_eq (setup : Setup) (now : Moment) (window : Option Window) :
    (fresh setup now).fitTo window =
      { setup, title := { begun := now }, window, log := ((fresh setup now).fitTo window).log
        chart := ((fresh setup now).fitTo window).chart } := by
  cases window with
  | none => rfl
  | some w => rfl

theorem Fitted.fitTo (h : Fitted setup b) (window : Option Window) :
    Fitted setup (b.fitTo window) := by
  cases window with
  | none => exact h
  | some w => exact h.resize w

/-- **A restart is a fresh start for the same setup in the same window**, but for the generation,
the lines of the log and the room for the histories of the load. The log is empty where a fresh one
tells about the session. The session of the generation before is stopped, and the next one begins.
-/
theorem restart_eq_fresh (setup : Setup) (opened : Moment) (history : List Event) (now : Moment) :
    let b := (fresh setup opened).deliverAll history
    let next := b.deliver (restartKey now)
    let start := (fresh setup now).fitTo b.window
    next = { start with
        generation := b.generation + 1
        log := { start.log with entries := [] }
        chart := next.chart } ∧
      (shown next.chart = shown start.chart ∧
          next.chart.samples.capacity = start.chart.samples.capacity ∧
        (Roomy b.window → next.chart.cpu.capacity = start.chart.cpu.capacity ∧
          next.chart.memory.capacity = start.chart.memory.capacity)) ∧
      start.log.entries =
        (RunLog.sessionLines (setup.workloads.map Workload.name) setup.settings).map (fun line =>
          now.timeText ++ " " ++ line) ∧
      (b.update now (.key "r")).2 = .stop b.generation :: opening (b.generation + 1) := by
  intro b next start
  have hb : Fitted setup b := (fitted_fresh setup opened).deliverAll history
  have hnext : next = b.restart now := rfl
  have hlog : start.log = _ := log_fitTo setup now b.window
  have hstart : Fitted setup start := (fitted_fresh setup now).fitTo b.window
  have hentries : start.log.entries = (fresh setup now).log.entries := by rw [hlog]
  have hwindow : start.window = b.window := by
    simp only [start]
    rw [fitTo_eq]
  refine ⟨?_, ⟨?_, ?_, fun hroom => ?_⟩, ?_, rfl⟩
  · have heq : start = _ := fitTo_eq setup now b.window
    rw [hnext, heq, Dashboard.restart, RunLog.clear, hb.setup, hb.height, hlog]
  · rw [shown_fitTo]
    rfl
  · exact hb.samples.trans hstart.samples.symm
  · have hload := hstart.load (by rw [hwindow]; exact hroom)
    rw [hwindow] at hload
    exact ⟨(hb.load hroom).1.trans hload.1.symm, (hb.load hroom).2.trans hload.2.symm⟩
  · rw [hentries, entries_fresh]

/-- A fresh dashboard tells about its session, and a restarted one does not. -/
theorem entries_of_restart :
    let b := fresh {} .origin
    b.log.entries.length = 2 ∧ (b.deliver (restartKey .origin)).log.entries = [] := by
  intro b
  refine ⟨?_, rfl⟩
  have hentries := congrArg List.length (entries_fresh {} .origin)
  rwa [List.length_map] at hentries

end Stopwatch.Dashboard
