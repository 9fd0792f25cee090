import Mathlib.Algebra.BigOperators.Group.List.Basic
import Mathlib.Algebra.GroupWithZero.Nat
import Stopwatch.Dashboard.Live
import Stopwatch.Proofs.Dashboard.Ticks

/-!
# Courses

A course is a dashboard at work: it is given messages in the order of time, delivers all ticks that
are due before the next of them, and takes samples when it is asked to. All that it does is a run of
a clockwork (`leads_play`), and so what holds of all runs holds of it. In particular the number of
ticks that it is ready to deliver between two messages is enough for those that are due
(`fire_spec`).
-/

namespace Stopwatch.Dashboard

/-- The delivery of a message. -/
def Event.ofMessage (time : Moment) : Message → Event
  | .key name => .input time (.key name)
  | .resize w => .input time (.resize w)
  | .progress p => .report time 0 (.progress p)
  | .progressDone => .report time 0 .progressDone
  | .comparison p results => .report time 0 (.comparison p results)
  | .result p r => .report time 0 (.result p r)
  | .failure spent f => .report time 0 (.failure spent f)
  | .tick => .input time .tick
  | .memory m => .input time (.memory m)
  | .load cpu mem => .input time (.load cpu mem)
  | .complete generation exit results => .report time generation (.complete exit results)
  | .cutShort generation cause => .report time generation (.cutShort cause)
  | .unknown => .input time .unknown

theorem update_eq (b : Dashboard) (time : Moment) (m : Message) :
    b.update time m = (b.deliver (.ofMessage time m), b.asked (.ofMessage time m)) := by
  cases m <;> rfl

theorem time_ofMessage (time : Moment) (m : Message) : (Event.ofMessage time m).time = time := by
  cases m <;> rfl

theorem Clockwork.Run.append {a b c : Clockwork}
    {history later : List (Clockwork × Event)} (h : Run a history b) (h' : Run b later c) :
    Run a (history ++ later) c := by
  induction h' with
  | nil => rwa [List.append_nil]
  | snoc _ hstep ih =>
    rw [← List.append_assoc]
    exact ih.snoc hstep

/-- One clockwork leads to another. -/
def Clockwork.Leads (a b : Clockwork) : Prop := ∃ history, Run a history b

theorem Clockwork.Leads.refl (a : Clockwork) : Leads a a := ⟨[], .nil⟩

theorem Clockwork.Leads.trans {a b c : Clockwork} : Leads a b → Leads b c → Leads a c
  | ⟨_, h⟩, ⟨_, h'⟩ => ⟨_, h.append h'⟩

theorem Clockwork.Step.leads {a b : Clockwork} {e : Event} (h : Step a e b) :
    Leads a b := ⟨_, Run.nil.snoc h⟩

namespace Course

/-- The dashboard of a course with the ticks that it waits for. -/
def clockwork (c : Course) : Clockwork := ⟨c.board, c.now, c.ticks⟩

variable {c : Course} {t : Moment} {m : Timed Message} {limit : Moment}

/-! ## Effects -/

theorem ticks_foldl_perform (effects : List Effect) (c : Course) :
    (effects.foldl perform c).now = c.now ∧
      (effects.foldl perform c).ticks = c.ticks ++ dueAfter c.now effects := by
  induction effects generalizing c with
  | nil => simp [dueAfter]
  | cons x effects ih =>
    rw [List.foldl_cons]
    obtain ⟨hnow, hticks⟩ := ih (c.perform x)
    rw [hnow, hticks]
    cases x <;> simp [perform, dueAfter, List.replicate_succ]

theorem ticks_deliver (c : Course) (m : Timed Message) :
    (c.deliver m).now = m.time ∧
      (c.deliver m).ticks = c.ticks ++ dueAfter m.time
        (c.board.asked (.ofMessage m.time m.value)) := by
  unfold deliver
  rw [update_eq]
  exact ticks_foldl_perform _ _

/-- Samples are messages that are delivered at once, and everything else that is asked for has to do
with ticks or is not seen by the dashboard. -/
theorem leads_perform (effects : List Effect) (c : Course) :
    Clockwork.Leads ⟨c.board, c.now, c.ticks ++ dueAfter c.now effects⟩
      (effects.foldl perform c).clockwork := by
  induction effects generalizing c with
  | nil =>
    rw [dueAfter_nil, List.append_nil]
    exact .refl _
  | cons x effects ih =>
    rw [List.foldl_cons]
    refine .trans ?_ (ih (c.perform x))
    have hsample : ∀ i : Input, c.board.asked (.input c.now i) = [] →
          (Event.input c.now i).isTick = false →
        Clockwork.Leads ⟨c.board, c.now, c.ticks ++ dueAfter c.now effects⟩
          ⟨c.board.deliver (.input c.now i), c.now, c.ticks ++ dueAfter c.now effects⟩ := by
      intro i hasked htick
      have hstep :=
        Clockwork.Step.message (c := ⟨c.board, c.now, c.ticks ++ dueAfter c.now effects⟩)
          (.input c.now i) (Int.le_refl _) htick
      rw [Clockwork.deliver, hasked, dueAfter_nil, List.append_nil] at hstep
      exact hstep.leads
    cases x with
    | tick =>
      have heq : c.ticks ++ dueAfter c.now (.tick :: effects) =
          (c.perform .tick).ticks ++ dueAfter (c.perform .tick).now effects := by
        simp [perform, dueAfter, List.replicate_succ]
      rw [heq]
      exact .refl _
    | sampleMemory => exact hsample (.memory {}) rfl rfl
    | sampleLoad => exact hsample (.load 0.0 0.0) rfl rfl
    | _ => exact .refl _

theorem leads_deliver (c : Course) (m : Timed Message) :
    Clockwork.Leads (c.clockwork.deliver (.ofMessage m.time m.value)) (c.deliver m).clockwork := by
  unfold deliver
  rw [update_eq]
  have h := leads_perform (c.board.asked (.ofMessage m.time m.value))
    { c with
      board := c.board.deliver (.ofMessage m.time m.value), now := m.time,
        delivered := m.value :: c.delivered }
  rwa [Clockwork.deliver, time_ofMessage]

/-! ## Ticks that are due -/

/-- The earlier one of a moment that was found and another. -/
def earlier (found : Option Moment) (t : Moment) : Option Moment :=
  match found with
  | some u => if t.ns < u.ns then some t else found
  | none => some t

theorem foldl_earlier (ts : List Moment) (u : Moment) :
    ∃ w ∈ u :: ts, ts.foldl earlier (some u) = some w ∧ ∀ x ∈ u :: ts, w.ns ≤ x.ns := by
  induction ts generalizing u with
  | nil => exact ⟨u, List.mem_singleton_self u, rfl, by simp⟩
  | cons t ts ih =>
    by_cases h : t.ns < u.ns
    · obtain ⟨w, hmem, heq, hle⟩ := ih t
      have hw := hle t List.mem_cons_self
      refine ⟨w, List.mem_cons_of_mem u hmem, ?_, List.forall_mem_cons.mpr ⟨by omega, hle⟩⟩
      rw [List.foldl_cons, earlier, if_pos h, heq]
    · obtain ⟨w, hmem, heq, hle⟩ := ih u
      obtain ⟨hw, hle⟩ := List.forall_mem_cons.mp hle
      refine ⟨w, by grind, ?_,
        List.forall_mem_cons.mpr ⟨hw, List.forall_mem_cons.mpr ⟨by omega, hle⟩⟩⟩
      rw [List.foldl_cons, earlier, if_neg h, heq]

/-- The tick that comes next is the earliest of those that are due. -/
theorem dueBefore_eq_some (h : c.dueBefore limit = some t) :
    t ∈ c.ticks ∧ t.ns ≤ limit.ns ∧ ∀ u ∈ c.ticks, u.ns ≤ limit.ns → t.ns ≤ u.ns := by
  have heq : c.dueBefore limit = (c.ticks.filter fun u => u.ns ≤ limit.ns).foldl earlier none := rfl
  rw [heq] at h
  have hmem : ∀ u, u ∈ c.ticks.filter (fun u => u.ns ≤ limit.ns) ↔ u ∈ c.ticks ∧
    u.ns ≤ limit.ns := by simp
  cases hdue : c.ticks.filter fun u => u.ns ≤ limit.ns with
  | nil => simp [hdue] at h
  | cons u us =>
    obtain ⟨w, hw, hfold, hle⟩ := foldl_earlier us u
    rw [hdue, List.foldl_cons] at h
    obtain rfl : w = t := Option.some.inj (hfold.symm.trans h)
    rw [← hdue] at hw hle
    obtain ⟨hw, hlimit⟩ := (hmem w).mp hw
    exact ⟨hw, hlimit, fun u hu hul => hle u ((hmem u).mpr ⟨hu, hul⟩)⟩

theorem dueBefore_eq_none (h : c.dueBefore limit = none) : ∀ u ∈ c.ticks, limit.ns < u.ns := by
  have heq : c.dueBefore limit = (c.ticks.filter fun u => u.ns ≤ limit.ns).foldl earlier none := rfl
  rw [heq] at h
  cases hdue : c.ticks.filter fun u => u.ns ≤ limit.ns with
  | nil => simpa [List.filter_eq_nil_iff] using hdue
  | cons u us =>
    obtain ⟨w, -, hfold, -⟩ := foldl_earlier us u
    rw [hdue, List.foldl_cons] at h
    exact absurd (hfold.symm.trans h) (by simp)

theorem period_toInt : period.toInt = 500000000 := by decide

theorem ns_after_period (t : Moment) : (t.after period).ns = t.ns + 500000000 := by
  rw [Moment.after, period_toInt]

/-- How many ticks can follow from one that is due at a moment, up to another. -/
def ticksFrom (limit t : Moment) : ℕ := ((limit.ns - t.ns + period.toInt) / period.toInt).toNat

theorem ticksUpTo_eq (c : Course) (limit : Moment) :
    c.ticksUpTo limit = (c.ticks.map (ticksFrom limit)).sum :=
  List.sum_eq_foldl.symm

theorem ticksFrom_pos (h : t.ns ≤ limit.ns) : 0 < ticksFrom limit t := by
  rw [ticksFrom, period_toInt]
  omega

theorem ticksFrom_after (h : t.ns ≤ limit.ns) :
    ticksFrom limit (t.after period) + 1 = ticksFrom limit t := by
  rw [ticksFrom, ticksFrom, ns_after_period, period_toInt]
  omega

/-- A course after a tick. -/
def fired (c : Course) (t : Moment) : Course :=
  { c with ticks := c.ticks.erase t }.deliver ⟨t, .tick⟩

theorem ticks_fired (c : Course) (t : Moment) :
    (c.fired t).now = t ∧ (c.fired t).ticks = c.ticks.erase t ++ dueAfter t c.board.onTick :=
  ticks_deliver _ _

theorem ticksUpTo_fired (hmem : t ∈ c.ticks) (hle : t.ns ≤ limit.ns) :
    (c.fired t).ticksUpTo limit + 1 ≤ c.ticksUpTo limit := by
  -- Whatever follows from the tick that is asked for now was counted with the one that came, and
  -- that one besides.
  have hcount : c.board.onTick.count .tick ≤ 1 := by
    unfold onTick
    split_ifs <;> decide
  have hsum := List.sum_map_erase (ticksFrom limit) hmem
  have hafter := ticksFrom_after hle
  have hpos := ticksFrom_pos hle
  rw [ticksUpTo_eq, ticksUpTo_eq, (ticks_fired c t).2, dueAfter, List.map_append,
    List.sum_append, List.map_replicate, List.sum_replicate]
  rcases Nat.le_one_iff_eq_zero_or_eq_one.mp hcount with h | h
  · rw [h, zero_nsmul]
    omega
  · rw [h, one_nsmul]
    omega

theorem leads_fired (hmem : t ∈ c.ticks) (hnow : c.now.ns ≤ t.ns) :
    Clockwork.Leads c.clockwork (c.fired t).clockwork :=
  (Clockwork.Step.tick (c := c.clockwork) t t hnow hmem (Int.le_refl _)).leads.trans
    (leads_deliver { c with ticks := c.ticks.erase t } ⟨t, .tick⟩)

/-- No tick is overdue. -/
def Ahead (c : Course) : Prop := ∀ t ∈ c.ticks, c.now.ns ≤ t.ns

theorem ahead_fired (h : c.dueBefore limit = some t) : (c.fired t).Ahead := by
  obtain ⟨-, hlimit, hle⟩ := dueBefore_eq_some h
  obtain ⟨hnow, hticks⟩ := ticks_fired c t
  intro u hu
  rw [hnow]
  rw [hticks] at hu
  rcases List.mem_append.mp hu with hu | hu
  · by_cases hul : u.ns ≤ limit.ns
    · exact hle u (List.mem_of_mem_erase hu) hul
    · omega
  · rw [List.eq_of_mem_replicate hu, ns_after_period]
    omega

/-- **All ticks that are due up to a moment are delivered**, and not more than can happen. -/
theorem fire_spec (n : ℕ) (c : Course) (hahead : c.Ahead) (hnow : c.now.ns ≤ limit.ns)
    (hn : c.ticksUpTo limit ≤ n) :
    Clockwork.Leads c.clockwork (fire limit n c).clockwork ∧ (fire limit n c).now.ns ≤ limit.ns ∧
      ∀ t ∈ (fire limit n c).ticks, limit.ns < t.ns := by
  induction n generalizing c with
  | zero =>
    -- A tick that is due would count.
    refine ⟨.refl _, hnow, fun t ht => ?_⟩
    by_contra hle
    have hpos := ticksFrom_pos (not_lt.mp hle)
    have hsum := List.sum_map_erase (ticksFrom limit) (show t ∈ c.ticks from ht)
    rw [ticksUpTo_eq] at hn
    omega
  | succ n ih =>
    rw [fire]
    cases hdue : c.dueBefore limit with
    | none => exact ⟨.refl _, hnow, dueBefore_eq_none hdue⟩
    | some t =>
      obtain ⟨hmem, hle, -⟩ := dueBefore_eq_some hdue
      have hless := ticksUpTo_fired hmem hle
      have hnow' : (c.fired t).now.ns ≤ limit.ns := by rwa [(ticks_fired c t).1]
      obtain ⟨hleads, hrest⟩ := ih (c.fired t) (ahead_fired hdue) hnow' (by omega)
      exact ⟨(leads_fired hmem (hahead t hmem)).trans hleads, hrest⟩

/-- **A course is a run**: messages in the order of time, and all ticks between them at the moment
they are due. -/
theorem leads_play (ms : List (Timed Message)) (c : Course) (hahead : c.Ahead)
    (hnow : ∀ m ∈ ms, c.now.ns ≤ m.time.ns) (hms : ms.Pairwise fun m m' => m.time.ns ≤ m'.time.ns)
    (htick : ∀ m ∈ ms, (Event.ofMessage m.time m.value).isTick = false) :
    Clockwork.Leads c.clockwork (play ms c).clockwork := by
  induction ms generalizing c with
  | nil => exact .refl _
  | cons m ms ih =>
    obtain ⟨hm, -⟩ := List.forall_mem_cons.mp hnow
    obtain ⟨hmtick, htick⟩ := List.forall_mem_cons.mp htick
    obtain ⟨hfirst, hms⟩ := List.pairwise_cons.mp hms
    obtain ⟨hleads, hle, hlate⟩ := fire_spec (c.ticksUpTo m.time) c hahead hm (Nat.le_refl _)
    rw [play]
    generalize fire m.time (c.ticksUpTo m.time) c = c' at hleads hle hlate ⊢
    obtain ⟨hnow', hticks⟩ := ticks_deliver c' m
    have hdeliver : Clockwork.Leads c.clockwork (c'.deliver m).clockwork := by
      refine hleads.trans
        (.trans (Clockwork.Step.leads (.message _ ?_ hmtick)) (leads_deliver c' m))
      rw [time_ofMessage]
      exact hle
    split_ifs
    · exact hdeliver
    · refine hdeliver.trans (ih (c'.deliver m) ?_ (fun x hx => hnow' ▸ hfirst x hx) hms htick)
      intro t ht
      rw [hnow']
      rw [hticks] at ht
      rcases List.mem_append.mp ht with ht | ht
      · exact (hlate t ht).le
      · rw [List.eq_of_mem_replicate ht, ns_after_period]
        omega

end Course

end Stopwatch.Dashboard
