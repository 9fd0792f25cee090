import Stopwatch.Proofs.Session.Workloads

/-!
# Sessions in other surroundings

Surroundings can be made to keep more than they did, a record of what was done or how long it took
to send an update. The map between their states then respects everything a session does
(`Surroundings.Hom`), so the session has the same results and notices in both, and ends in states
that the map relates (`Hom.runFrom`).
-/

namespace Stopwatch

variable {σ τ : Type} {S : Surroundings σ} {T : Surroundings τ} {f : σ → τ} {s t : σ}

/-- The same runs, found in another state. -/
def Runs.map (f : σ → τ) (r : Runs σ) : Runs τ := { r with state := f r.state }

/-- The same benchmark, ended in another state. -/
def Benchmark.Ended.map (f : σ → τ) (e : Benchmark.Ended σ) : Benchmark.Ended τ :=
  { e with state := f e.state }

/-- The same session, ended in another state. -/
def Session.Ended.map (f : σ → τ) (e : Session.Ended σ) : Session.Ended τ :=
  { e with state := f e.state }

namespace Surroundings

/-- A map of states under which the same is found in both surroundings. -/
structure Hom (S : Surroundings σ) (T : Surroundings τ) (f : σ → τ) : Prop where
  now : ∀ s, T.now (f s) = S.now s
  check : ∀ s, T.check (f s) = ((S.check s).1, f (S.check s).2)
  clock : ∀ s, T.clock (f s) = ((S.clock s).1, f (S.clock s).2)
  begin : ∀ plan i s, T.begin plan i (f s) = f (S.begin plan i s)
  finish : ∀ plan i s, T.finish plan i (f s) = ((S.finish plan i s).1, f (S.finish plan i s).2)
  elapsed : ∀ start s, T.elapsed start (f s) = ((S.elapsed start s).1, f (S.elapsed start s).2)
  memory : ∀ s, T.memory (f s) = S.memory s
  opening : T.opening = S.opening

namespace Hom

variable (h : S.Hom T f)
include h

theorem call (plan : Plan) (i : Nat) (s : σ) :
    T.call plan i (f s) = ((S.call plan i s).1, f (S.call plan i s).2) := by
  rw [Surroundings.call, h.begin, h.finish, Surroundings.call]

theorem time (plan : Plan) (i : Nat) (s : σ) :
    T.time plan i (f s) = ((S.time plan i s).1, f (S.time plan i s).2) := by
  simp only [Surroundings.time, h.clock, h.call, h.elapsed]

theorem timeRuns (plan : Plan) (index : Int) (name : Text) (runs : Int) (left i : Nat) (s : σ) :
    Benchmark.timeRuns T plan index name runs left i (f s) =
      (Benchmark.timeRuns S plan index name runs left i s).map f := by
  induction left generalizing i s with
  | zero => rfl
  | succ left ih =>
    rw [Benchmark.timeRuns, Benchmark.timeRuns, h.check]
    rcases S.check s with ⟨_ | cause, checked⟩
    · simp only [h.time, ih, h.check, h.now]
      rfl
    · rfl

theorem run (schedule : Schedule) (index : Int) (w : Workload) (s : σ) :
    Benchmark.run T schedule index w (f s) = (Benchmark.run S schedule index w s).map f := by
  rw [Benchmark.run, Benchmark.run]
  cases Benchmark.refusal? schedule w with
  | some fault => rfl
  | none =>
    simp only [h.now, h.clock, h.memory, h.timeRuns, Runs.map, h.elapsed]
    rfl

theorem runFrom (schedule : Schedule) (ws : List Workload) (index : Int) (s : σ) :
    Session.runFrom T schedule index ws (f s) = (Session.runFrom S schedule index ws s).map f := by
  induction ws generalizing index s with
  | nil => rfl
  | cons w ws ih =>
    rw [Session.runFrom, Session.runFrom, h.check]
    rcases S.check s with ⟨_ | cause, checked⟩
    · simp only [h.run, Benchmark.Ended.map, ih, h.now, h.opening]
      rfl
    · simp only [ih]
      rfl

theorem reaches (hst : S.Reaches s t) : T.Reaches (f s) (f t) := by
  induction hst with
  | refl => exact .refl
  | check _ ih => simpa only [h.check] using ih.check
  | clock _ ih => simpa only [h.clock] using ih.clock
  | call plan i _ ih => simpa only [h.call] using ih.call plan i
  | elapsed start _ ih => simpa only [h.elapsed] using ih.elapsed start

/-- The end of the session lasts where it lasts in the other surroundings. -/
theorem endLasts (hT : T.EndLasts (f s)) : S.EndLasts s := by
  intro t u cause ht hu hcause
  simpa only [h.check] using hT (h.reaches ht) (h.reaches hu) (by rwa [h.check])

end Hom

end Surroundings

end Stopwatch
