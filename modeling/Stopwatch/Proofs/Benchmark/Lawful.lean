import Mathlib.Algebra.Order.Group.Int
import Mathlib.Tactic.SplitIfs
import Stopwatch.Benchmark.World
import Stopwatch.Proofs.Benchmark.Laps

/-!
# Laws of the surroundings

A session relies on two laws of what it finds around it: once it has ended it stays so, for the same
cause, and the clock never runs backwards (`Surroundings.Lawful`). They are asked for only in states
that can come about from the state in which the session begins. Then no lap of a benchmark takes
less than no time (`Laps.sample_nonneg`).

A world obeys the laws unless its clock gives readings listed beforehand
(`World.lawful_surroundings`).
-/

namespace Stopwatch

variable {σ : Type} {S : Surroundings σ} {s t u : σ}

namespace Surroundings

/-- A state that can come about from another one. -/
inductive Reaches (S : Surroundings σ) : σ → σ → Prop where
  | refl {s : σ} : Reaches S s s
  | check {s t : σ} (h : Reaches S s t) : Reaches S s (S.check t).2
  | clock {s t : σ} (h : Reaches S s t) : Reaches S s (S.clock t).2
  | call {s t : σ} (plan : Plan) (i : Nat) (h : Reaches S s t) : Reaches S s (S.call plan i t).2
  | elapsed {s t : σ} (start : Moment) (h : Reaches S s t) : Reaches S s (S.elapsed start t).2

theorem Reaches.trans (h₁ : S.Reaches s t) (h₂ : S.Reaches t u) : S.Reaches s u := by
  induction h₂ with
  | refl => exact h₁
  | check _ ih => exact .check ih
  | clock _ ih => exact .clock ih
  | call plan i _ ih => exact .call plan i ih
  | elapsed start _ ih => exact .elapsed start ih

/-- What a session relies on from a state on. -/
structure Lawful (S : Surroundings σ) (s : σ) : Prop where
  /-- A session that has ended stays so, for the same cause. -/
  end_lasts : ∀ {t u cause}, S.Reaches s t → S.Reaches t u → (S.check t).1 = some cause →
    (S.check u).1 = some cause
  /-- The clock never runs backwards. -/
  forward : ∀ {t u}, S.Reaches s t → S.Reaches (S.clock t).2 u →
    0 ≤ (S.elapsed (S.clock t).1 u).1.toInt

/-- Once the session has ended it stays so, for the same cause: the first of the two laws. -/
def EndLasts (S : Surroundings σ) (s : σ) : Prop :=
  ∀ ⦃t u cause⦄, S.Reaches s t → S.Reaches t u → (S.check t).1 = some cause →
    (S.check u).1 = some cause

theorem EndLasts.of_reaches (h : S.EndLasts s) (ht : S.Reaches s t) : S.EndLasts t :=
  fun _ _ _ h₁ h₂ => h (ht.trans h₁) h₂

theorem Lawful.endLasts (h : S.Lawful s) : S.EndLasts s := fun _ _ _ h₁ h₂ => h.end_lasts h₁ h₂

theorem Lawful.of_reaches (h : S.Lawful s) (ht : S.Reaches s t) : S.Lawful t :=
  ⟨fun h₁ h₂ => h.end_lasts (ht.trans h₁) h₂, fun h₁ h₂ => h.forward (ht.trans h₁) h₂⟩

end Surroundings

/-! ## One benchmark -/

namespace Benchmark

variable {plan : Plan} {schedule : Schedule} {index : Int} {w : Workload} {i : Nat}
    {laps : List Lap} {last : σ}

theorem reaches_lap {checked begun called timed : σ} {start : Moment}
    {reply : Reply} {sample : Duration} (check : S.check s = (none, checked))
    (clock : S.clock checked = (start, begun))
    (call : S.call plan i begun = (reply, called))
    (elapsed : S.elapsed start called = (sample, timed)) :
    S.Reaches s checked ∧ S.Reaches begun called ∧ S.Reaches s timed := by
  have h1 : S.Reaches s (S.check s).2 := .check .refl
  rw [check] at h1
  have h2 : S.Reaches checked (S.clock checked).2 := .clock .refl
  rw [clock] at h2
  have h3 : S.Reaches begun (S.call plan i begun).2 := .call plan i .refl
  rw [call] at h3
  have h4 : S.Reaches called (S.elapsed start called).2 := .elapsed start .refl
  rw [elapsed] at h4
  exact ⟨h1, h3, h1.trans (h2.trans (h3.trans h4))⟩

theorem Laps.reaches (h : Laps S plan i s laps last) : S.Reaches s last := by
  induction h with
  | nil => exact .refl
  | cons check clock call elapsed _ ih => exact (reaches_lap check clock call elapsed).2.2.trans ih

/-- No lap takes less than no time. -/
theorem Laps.sample_nonneg (h : Laps S plan i s laps last) (hS : S.Lawful s) :
    ∀ l ∈ laps, 0 ≤ l.sample.toInt := by
  induction h with
  | nil => simp
  | @cons i s checked begun called timed last start reply sample laps check
      clock call elapsed _ ih =>
    obtain ⟨h1, h2, h3⟩ := reaches_lap check clock call elapsed
    have hforward := hS.forward (t := checked) (u := called) h1 (by rwa [clock])
    rw [clock, elapsed] at hforward
    exact List.forall_mem_cons.mpr ⟨hforward, ih (hS.of_reaches h3)⟩

theorem Ran.reaches {e : Ended σ} (h : Ran S schedule w s laps last e) : S.Reaches s e.state := by
  have hlast : S.Reaches s last := (Surroundings.Reaches.clock .refl).trans h.made.reaches
  rcases h.ended with ⟨-, -, hs⟩ | ⟨cause, stopped, -, -, hcheck, hs⟩
  · rw [hs]
    exact hlast.elapsed _
  · have hstopped := hlast.check
    rw [hcheck] at hstopped
    rw [hs]
    exact hstopped.elapsed _

/-- A benchmark that was interrupted leaves a session that has ended, for the cause of its fault. -/
theorem Ran.check_state {e : Ended σ} {f : Fault}
    (h : Ran S schedule w s laps last e) (hS : S.EndLasts s) (hf : e.fault = some f) :
    ∃ cause, f = .benchmark w.name cause ∧ (S.check e.state).1 = some cause := by
  rcases h.ended with ⟨hnone, -⟩ | ⟨cause, stopped, hsome, -, hcheck, hs⟩
  · rw [hnone] at hf
    exact absurd hf (by simp)
  · have hlast : S.Reaches s last := (Surroundings.Reaches.clock .refl).trans h.made.reaches
    have hstopped : S.Reaches last (S.check last).2 := .check .refl
    rw [hcheck] at hstopped
    refine ⟨cause, Option.some.inj (hf.symm.trans hsome), ?_⟩
    rw [hs]
    exact hS hlast (hstopped.elapsed _) (by rw [hcheck])

end Benchmark

/-! ## Worlds -/

namespace World

variable {v w : World}

/-- What becomes of a world: a cause that came up lasts, and time goes on. -/
structure Later (v w : World) : Prop where
  ended : ∀ {cause}, v.ended = some cause → w.ended = some cause
  now : v.now.ns ≤ w.now.ns
  readings : v.readings = none → w.readings = none

theorem ended_of_cause {cause : Fault} (h : w.cause = some cause) : w.ended = some cause := by
  rw [World.ended, h]

theorem later_pass (w : World) (d : Duration) : Later w (w.pass d) where
  ended h := by
    have h1 :
        ({ w with
          cause := w.ended, now := w.now.sleep d, woken := w.woken || 0 < d.toInt } : World).ended =
            some _ := ended_of_cause h
    exact ended_of_cause h1
  now := by
    show w.now.ns ≤ (w.now.sleep d).ns
    unfold Moment.sleep Moment.after
    split
    · show w.now.ns ≤ w.now.ns + d.toInt
      omega
    · exact le_rfl
  readings h := h

theorem later_cancel (w : World) : Later w w.cancel where
  ended h := ended_of_cause (by simp [World.cancel, h])
  now := le_rfl
  readings h := h

theorem Later.trans {u : World} (h₁ : Later u v) (h₂ : Later v w) : Later u w :=
  ⟨fun h => h₂.ended (h₁.ended h), h₁.now.trans h₂.now, fun h => h₂.readings (h₁.readings h)⟩

theorem later_call (w : World) (plan : Plan) (i : Nat) : Later w (w.call plan i).2 := by
  unfold World.call
  dsimp only
  split
  · exact (later_pass w _).trans (later_cancel _)
  · exact later_pass w _

theorem later_read (w : World) (d : Duration) : Later w (w.read d).2 := by
  unfold World.read
  split
  · exact ⟨id, le_rfl, id⟩
  · exact ⟨id, le_rfl, id⟩
  · exact ⟨id, le_rfl, id⟩
  · next hread => exact ⟨id, le_rfl, fun h => absurd (h.symm.trans hread) (by simp)⟩

theorem later_of_reaches (h : surroundings.Reaches v w) : Later v w := by
  induction h with
  | refl => exact ⟨id, le_rfl, id⟩
  | check _ ih => exact ih
  | clock _ ih => exact ih
  | call plan i _ ih => exact ih.trans (later_call _ plan i)
  | elapsed start _ ih => exact ih.trans (later_read _ _)

/-- The time between two moments, the later one last, is not negative. -/
theorem toInt_since_nonneg {a b : Moment} (h : a.ns ≤ b.ns) : 0 ≤ (a.since b).toInt := by
  show 0 ≤ (Int64.ofIntClamp (b.ns - a.ns)).toInt
  unfold Int64.ofIntClamp
  split_ifs with hlo hhi
  · rw [Int64.toInt_ofIntLE]
    omega
  · decide
  · have : Int64.minValue.toInt ≤ 0 := by decide
    omega

/-- A world whose clock tells its own time is lawful. -/
theorem lawful_surroundings (h : w.readings = none) : surroundings.Lawful w where
  end_lasts _ h₂ hcause := (later_of_reaches h₂).ended hcause
  forward {t u} h₁ h₂ := by
    have hnow : t.now.ns ≤ u.now.ns := (later_of_reaches h₂).now
    have hread : u.readings = none := ((later_of_reaches h₁).trans (later_of_reaches h₂)).readings h
    show 0 ≤ (u.read (t.now.since u.now)).1.toInt
    rw [World.read, hread]
    exact toInt_since_nonneg hnow

end World

end Stopwatch
