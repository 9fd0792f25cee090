import Mathlib.Tactic.SplitIfs
import Stopwatch.Proofs.Dashboard.Outcome

/-!
# The outcome is isolated from other sessions

The outcome of the current generation (`Dashboard.outcome`) and the end of the program are no
business of the messages that tell of runs, results, failures and the host, nor of the messages that
end a session of another generation. `outcome_isolated` compares two runs: one in which all messages
are delivered, and one in which those are left out (`essential`). Whether a message belongs to
another generation is decided when it is delivered, so a restart between its sending and its
delivery counts.

Two dashboards of one outcome go on to have one outcome, whatever else they show, because a message
acts on the outcome by its ruling alone, and the ruling looks at nothing but the generation.
-/

namespace Stopwatch.Dashboard

/-- What is asked for when a message is delivered. -/
def asked (b : Dashboard) : Event → List Effect
  | .input time i => (b.update time i.message).2
  | .report time generation r => (b.update time (r.message generation)).2

/-- True of a message that the outcome of a generation should not depend on: the end of a session of
another generation, and all that is said about runs, results, failures, memory and load. -/
def isBeside (generation : UInt64) : Event → Bool
  | .report _ g (.complete ..) => g != generation
  | .report _ g (.cutShort ..) => g != generation
  | .report .. => true
  | .input _ (.memory _) => true
  | .input _ (.load ..) => true
  | .input .. => false

/-- The messages without those that are beside the outcome at their delivery. -/
def essential (b : Dashboard) : List Event → List Event
  | [] => []
  | e :: es =>
    if isBeside b.generation e then (b.deliver e).essential es else e :: (b.deliver e).essential es

/-- The messages that make the program quit. -/
def quitting (b : Dashboard) : List Event → List Event
  | [] => []
  | e :: es =>
    if Effect.quit ∈ b.asked e then e :: (b.deliver e).quitting es else (b.deliver e).quitting es

variable {a b c : Dashboard} {e : Event}

/-! ## One message -/

theorem ruling_of_isBeside {generation : UInt64} (h : isBeside generation e = true) :
    ruling generation e = .none := by
  cases e with
  | input time i =>
    cases i with
    | memory m => rfl
    | load cpu mem => rfl
    | _ => simp [isBeside] at h
  | report time g r =>
    cases r with
    | complete exit results =>
      have hg : (g == generation) = false := by simpa [isBeside] using h
      simp [ruling, hg]
    | cutShort cause =>
      have hg : (g == generation) = false := by simpa [isBeside] using h
      simp [ruling, hg]
    | _ => rfl

/-- **The program quits by a key and by an end of the current session from outside, and by nothing
else.** -/
theorem quit_mem_asked_iff (b : Dashboard) (e : Event) :
    Effect.quit ∈ b.asked e ↔
      ruling b.generation e = .quit ∨ ∃ cause, ruling b.generation e = .cutShort cause := by
  cases e with
  | input time i =>
    cases i with
    | key name =>
      simp only [asked, Input.message, update, ruling]
      cases Action.ofKey? name with
      | none => simp
      | some action => cases action <;> simp [act, opening]
    | tick =>
      -- A tick asks for samples and for the next tick, and in a session that is done for nothing.
      simp only [asked, Input.message, update, ruling, onTick]
      split_ifs <;> simp
    | _ => simp [asked, Input.message, update, ruling]
  | report time g r =>
    cases r with
    | complete exit results =>
      simp only [asked, Report.message, update, ruling]
      split_ifs <;> simp
    | cutShort cause =>
      simp only [asked, Report.message, update, ruling]
      split_ifs <;> simp
    | _ => simp [asked, Report.message, update, ruling]

theorem generation_of_outcome (h : a.outcome = c.outcome) : a.generation = c.generation :=
  congrArg Outcome.generation h

theorem outcome_deliver_congr (h : a.outcome = c.outcome) (e : Event) :
    (a.deliver e).outcome = (c.deliver e).outcome := by
  rw [outcome_deliver, outcome_deliver, generation_of_outcome h, h]

theorem outcome_deliver_of_isBeside (h : isBeside b.generation e = true) :
    (b.deliver e).outcome = b.outcome := by
  rw [outcome_deliver, ruling_of_isBeside h]
  rfl

theorem not_quit_of_isBeside (h : isBeside b.generation e = true) : Effect.quit ∉ b.asked e := by
  rw [quit_mem_asked_iff, ruling_of_isBeside h]
  simp

theorem quit_mem_asked_congr (h : a.outcome = c.outcome) (e : Event) :
    Effect.quit ∈ a.asked e ↔ Effect.quit ∈ c.asked e := by
  rw [quit_mem_asked_iff, quit_mem_asked_iff, generation_of_outcome h]

/-! ## All messages -/

/-- The two runs agree on the outcome as long as they begin with one. -/
theorem outcome_deliverAll_essential (h : a.outcome = c.outcome) (es : List Event) :
    (c.deliverAll (a.essential es)).outcome = (a.deliverAll es).outcome := by
  induction es generalizing a c with
  | nil => exact h.symm
  | cons e es ih =>
    have hall : a.deliverAll (e :: es) = (a.deliver e).deliverAll es := rfl
    rw [essential, hall]
    split_ifs with hbeside
    · -- The message is left out of the second run, and does nothing to the outcome in the first.
      exact ih ((outcome_deliver_of_isBeside hbeside).trans h)
    · exact ih (outcome_deliver_congr h e)

theorem quitting_essential (h : a.outcome = c.outcome) (es : List Event) :
    c.quitting (a.essential es) = a.quitting es := by
  induction es generalizing a c with
  | nil => rfl
  | cons e es ih =>
    rw [essential, quitting]
    split_ifs with hbeside hquit hquit
    · exact absurd hquit (not_quit_of_isBeside hbeside)
    · exact ih ((outcome_deliver_of_isBeside hbeside).trans h)
    · rw [quitting, if_pos ((quit_mem_asked_congr h e).mp hquit), ih (outcome_deliver_congr h e)]
    · rw [quitting, if_neg (fun hc => hquit ((quit_mem_asked_congr h e).mpr hc)),
        ih (outcome_deliver_congr h e)]

/-- **The outcome does not depend on the messages beside it.** Leaving them out changes neither the
generation nor whether the session is done, its exit code and its results; none of them makes the
program quit, and the same messages as before do. -/
theorem outcome_isolated (b : Dashboard) (es : List Event) :
    (b.deliverAll (b.essential es)).outcome = (b.deliverAll es).outcome ∧
      (∀ before e after, es = before ++ e :: after →
          isBeside (b.deliverAll before).generation e = true →
        Effect.quit ∉ (b.deliverAll before).asked e) ∧
      b.quitting (b.essential es) = b.quitting es := by
  refine ⟨outcome_deliverAll_essential rfl es, ?_, quitting_essential rfl es⟩
  intro before e after _ hbeside
  exact not_quit_of_isBeside hbeside

end Stopwatch.Dashboard
