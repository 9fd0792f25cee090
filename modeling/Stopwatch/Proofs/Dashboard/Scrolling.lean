import Mathlib.Data.Int.Order.Basic
import Mathlib.Data.List.Induction
import Mathlib.Tactic.SplitIfs
import Stopwatch.Proofs.Dashboard.Generations

/-!
# Scrolling the run log

The window of the log is `offset` lines up from the end. It is full, that is, it shows as many lines
as there are up to its height, exactly if the offset leaves at least as many lines below the top of
the log as the window has rows (`Sound.full_iff`). A key that scrolls brings the offset into this
range, a fresh start does too, and lines that are added keep it there, also when the log drops its
oldest ones. A resize does not look at the offset: in a taller window an offset may be too great
that was in range before, and then lines are missing at the top while there are lines below the
window (`gap_of_taller_window`).

So over a whole history the window is always full if and only if no resize makes it taller than what
is left above its lower edge (`window_full_iff`).
-/

namespace Stopwatch

namespace RunLog

/-! ## Histories -/

/-- What can be done with a log. -/
inductive Deed where
  | add (now : Moment) (line : Text)
  | scroll (a : Action)
  | resize (height : ℤ)
  | clear

def perform (log : RunLog) : Deed → RunLog
  | .add now line => log.add now line
  | .scroll a => log.scroll (log.distance a)
  | .resize height => { log with height }
  | .clear => log.clear

def performAll (log : RunLog) (deeds : List Deed) : RunLog := deeds.foldl perform log

/-- The log after a history. -/
def run (deeds : List Deed) : RunLog := performAll {} deeds

/-- The window does not reach beyond the first line, unless it shows all lines. -/
def InRange (log : RunLog) : Prop := (log.offset : ℤ) ≤ max 0 ((log.entries.length : ℤ) - log.page)

/-- The window shows as many lines as there are, up to its height. -/
def Full (log : RunLog) : Prop := (log.visible log.page).length = min log.page log.entries.length

variable {log : RunLog} {deeds : List Deed}

theorem performAll_append (log : RunLog) (deeds later : List Deed) :
    log.performAll (deeds ++ later) = (log.performAll deeds).performAll later := List.foldl_append

/-! ## The window -/

theorem page_pos (log : RunLog) : 0 < log.page := by
  unfold page
  omega

theorem length_visible (log : RunLog) (n : ℕ) :
    (log.visible n).length = min n (log.entries.length - log.offset) := by
  simp only [visible, List.length_drop, List.length_take]
  omega

/-- The lines of a window stand one after the other in the log. -/
theorem isInfix_visible (log : RunLog) (n : ℕ) : log.visible n <:+: log.entries :=
  (List.drop_suffix _ _).isInfix.trans (List.take_prefix _ _).isInfix

/-! ## What deeds do -/

@[simp] theorem offset_add (log : RunLog) (now : Moment) (line : Text) :
    (log.add now line).offset = log.offset := by
  simp only [add]

@[simp] theorem page_add (log : RunLog) (now : Moment) (line : Text) :
    (log.add now line).page = log.page := by
  simp only [add, page]

theorem length_add (log : RunLog) (now : Moment) (line : Text) :
    (log.add now line).entries.length = min (log.entries.length + 1) maxEntries := by
  simp only [add, List.length_drop, List.length_append, List.length_singleton]
  omega

@[simp] theorem entries_scroll (log : RunLog) (up : ℤ) :
    (log.scroll up).entries = log.entries := rfl

@[simp] theorem page_scroll (log : RunLog) (up : ℤ) : (log.scroll up).page = log.page := rfl

theorem offset_scroll (log : RunLog) (up : ℤ) :
    (log.scroll up).offset =
      (min (log.offset + up) ((log.entries.length : ℤ) - log.page)).toNat := rfl

/-- What holds of every log: it is not too long, and the lower edge of the window lies on it. -/
structure Sound (log : RunLog) : Prop where
  length_le : log.entries.length ≤ maxEntries
  offset_le : log.offset ≤ log.entries.length

theorem sound_of_nil (h : log.entries = []) (hoffset : log.offset = 0) : Sound log :=
  ⟨by rw [h]; exact Nat.zero_le _, by rw [hoffset]; exact Nat.zero_le _⟩

theorem Sound.perform (h : Sound log) (deed : Deed) : Sound (log.perform deed) := by
  have hlength := h.length_le
  have hoffset := h.offset_le
  cases deed with
  | add now line =>
    simp only [RunLog.perform]
    refine ⟨?_, ?_⟩
    · rw [length_add]
      omega
    · rw [offset_add, length_add]
      omega
  | scroll a =>
    have hpage := log.page_pos
    refine ⟨hlength, ?_⟩
    simp only [RunLog.perform]
    rw [entries_scroll, offset_scroll]
    omega
  | resize height => exact ⟨hlength, hoffset⟩
  | clear => exact sound_of_nil rfl rfl

theorem Sound.performAll (h : Sound log) (deeds : List Deed) : Sound (log.performAll deeds) := by
  induction deeds generalizing log with
  | nil => exact h
  | cons deed deeds ih => exact ih (h.perform deed)

theorem sound_run (deeds : List Deed) : Sound (run deeds) := (sound_of_nil rfl rfl).performAll deeds

/-- The window is full exactly if its offset is in range. -/
theorem Sound.full_iff (h : Sound log) : log.Full ↔ log.InRange := by
  have hoffset := h.offset_le
  have hpage := log.page_pos
  rw [Full, InRange, length_visible]
  omega

/-! ## One deed -/

theorem inRange_of_offset_eq_zero (h : log.offset = 0) : log.InRange := by
  rw [InRange, h]
  exact Int.le_max_left _ _

theorem InRange.add (h : log.InRange) (hs : Sound log) (now : Moment) (line : Text) :
    (log.add now line).InRange := by
  have hlength := hs.length_le
  rw [InRange] at h ⊢
  rw [offset_add, page_add, length_add]
  omega

/-- **Scrolling brings the offset into range**, wherever it was. -/
theorem inRange_scroll (log : RunLog) (up : ℤ) : (log.scroll up).InRange := by
  rw [InRange, entries_scroll, page_scroll, offset_scroll]
  omega

/-- Only a resize can take the offset out of range. -/
theorem InRange.perform (h : log.InRange) (hs : Sound log) {deed : Deed}
    (hfits : ∀ height, deed = .resize height → InRange { log with height }) :
    (log.perform deed).InRange := by
  cases deed with
  | add now line => exact h.add hs now line
  | scroll a => exact inRange_scroll log _
  | resize height => exact hfits height rfl
  | clear => exact inRange_of_offset_eq_zero rfl

/-! ## All deeds -/

/-- Every resize of a history comes when the offset is in range for the new height. -/
def ResizesFit (deeds : List Deed) : Prop :=
  ∀ before height after, deeds = before ++ .resize height :: after →
    InRange { run before with height }

theorem ResizesFit.of_append {later : List Deed} (h : ResizesFit (deeds ++ later)) :
    ResizesFit deeds := by
  intro before height after heq
  exact h before height (after ++ later) (by rw [heq, List.append_assoc, List.cons_append])

theorem ResizesFit.inRange (h : ResizesFit deeds) : (run deeds).InRange := by
  induction deeds using List.reverseRecOn with
  | nil => exact inRange_of_offset_eq_zero rfl
  | append_singleton deeds deed ih =>
    have hrun : run (deeds ++ [deed]) = (run deeds).perform deed :=
      performAll_append {} deeds [deed]
    rw [hrun]
    refine (ih h.of_append).perform (sound_run deeds) fun height heq => ?_
    exact h deeds height [] (by rw [heq])

theorem inRange_iff_resizesFit (deeds : List Deed) :
    (∀ ds, ds <+: deeds → (run ds).InRange) ↔ ResizesFit deeds := by
  constructor
  · intro hall before height after heq
    have hrun : run (before ++ [.resize height]) = { run before with height } :=
      performAll_append {} before _
    rw [← hrun]
    exact hall _ ⟨after, by rw [heq, List.append_assoc, List.singleton_append]⟩
  · rintro hfit ds ⟨later, rfl⟩
    exact hfit.of_append.inRange

end RunLog

/-! ## The log of a dashboard -/

namespace Dashboard

/-- What the delivery of a message does with the log. -/
def logDeeds (b : Dashboard) : Event → List RunLog.Deed
  | .input _ (.key name) =>
    match Action.ofKey? name with
    | none | some .quit | some .pause => []
    | some .restart => [.clear]
    | some a => [.scroll a]
  | .input _ (.resize w) => [.resize w.bodyHeight.toInt]
  | .input .. => []
  | .report time _ (.progress p) => if b.paused then [] else [.add time (RunLog.runLine b.unit p)]
  | .report time _ (.comparison p results) => (RunLog.comparisonLines p results).map (.add time)
  | .report time _ (.result p r) => (RunLog.resultLines p r).map (.add time)
  | .report time _ (.failure spent f) => [.add time (RunLog.failureLine spent f)]
  | .report .. => []

theorem addAll_eq_performAll (log : RunLog) (now : Moment) (lines : List Text) :
    log.addAll now lines = log.performAll (lines.map (.add now)) := by
  rw [RunLog.performAll, List.foldl_map]
  rfl

theorem log_deliver (b : Dashboard) (e : Event) :
    (b.deliver e).log = b.log.performAll (b.logDeeds e) := by
  cases e with
  | input time i =>
    cases i with
    | key name =>
      simp only [deliver, Input.message, update, logDeeds]
      cases Action.ofKey? name with
      | none => rfl
      | some action => cases action <;> rfl
    | _ => rfl
  | report time g r =>
    cases r with
    | progress p =>
      simp only [deliver, Report.message, update, Dashboard.progress, logDeeds]
      split_ifs <;> rfl
    | comparison p results =>
      simp only [deliver, Report.message, update]
      exact addAll_eq_performAll b.log time _
    | result p r =>
      simp only [deliver, Report.message, update]
      exact addAll_eq_performAll b.log time _
    | complete exit results =>
      simp only [deliver, Report.message, update, logDeeds]
      split_ifs <;> rfl
    | cutShort cause =>
      simp only [deliver, Report.message, update, logDeeds]
      split_ifs <;> rfl
    | _ => rfl

/-- The log of a dashboard has a history, whatever was delivered. -/
theorem exists_log_eq_run (setup : Setup) (opened : Moment) (es : List Event) :
    ∃ deeds, ((fresh setup opened).deliverAll es).log = RunLog.run deeds := by
  induction es using List.reverseRecOn with
  | nil => exact ⟨_, addAll_eq_performAll {} opened _⟩
  | append_singleton es e ih =>
    obtain ⟨deeds, hlog⟩ := ih
    refine ⟨deeds ++ ((fresh setup opened).deliverAll es).logDeeds e, ?_⟩
    rw [deliverAll_append, RunLog.run, RunLog.performAll_append, ← RunLog.run, ← hlog]
    exact log_deliver _ e

end Dashboard

namespace RunLog

/-- **The window is full as long as every resize fits.** After any history, the lines in the window
stand one after the other in the log, and they are as many as there are up to the height of the
window exactly if the offset is in range. So it is after every key that scrolls, whatever came
before; and it is throughout a history if and only if every resize finds an offset that is in range
for the new height. The log of a dashboard always has such a history. -/
theorem window_full_iff (deeds : List Deed) :
    let log := run deeds
    log.visible log.page <:+: log.entries ∧
      (log.InRange ↔ (log.visible log.page).length = min log.page log.entries.length) ∧
      (∀ a, (log.perform (.scroll a)).InRange) ∧
      ((∀ ds, ds <+: deeds → (run ds).InRange) ↔
        ∀ before height after, deeds = before ++ .resize height :: after →
          InRange { run before with height }) ∧
      ∀ (setup : Dashboard.Setup) (opened : Moment) (es : List Dashboard.Event),
        ∃ history, ((Dashboard.fresh setup opened).deliverAll es).log = run history := by
  intro log
  exact ⟨log.isInfix_visible _, (sound_run deeds).full_iff.symm, fun a => inRange_scroll log _,
    inRange_iff_resizesFit deeds, fun setup opened es =>
      Dashboard.exists_log_eq_run setup opened es⟩

/-- Eight lines, a window of four rows that is scrolled up to the first of them, and then a window
of twenty-six rows: it shows four of the lines. -/
theorem gap_of_taller_window :
    let deeds : List Deed :=
      .resize 6 :: List.replicate 8 (.add .origin ∅) ++ [.scroll .pageUp, .resize 28]
    let log := run deeds
    ¬ log.InRange ∧ log.offset = 4 ∧ log.page = 26 ∧ log.entries.length = 8 ∧
      (log.visible log.page).length = 4 := by
  intro deeds log
  have hoffset : log.offset = 4 := by decide
  have hpage : log.page = 26 := by decide
  have hlength : log.entries.length = 8 := by decide
  refine ⟨?_, hoffset, hpage, hlength, ?_⟩
  · rw [InRange, hoffset, hpage, hlength]
    decide
  · rw [length_visible, hoffset, hpage, hlength]
    rfl

end RunLog

end Stopwatch
