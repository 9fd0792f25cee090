import Stopwatch.Benchmark

/-!
# A world with a clock

Surroundings in which time passes only while workloads run, and a session ends by a deadline, at a
given moment, or because a workload says so. The clock either tells the time of this world, or gives
readings listed beforehand.

Whoever wakes up at the very moment of a deadline goes on before the deadline is noticed. It is
noticed once time goes on, or once the world has come to rest at that moment (`World.settle`).
-/

namespace Stopwatch

/-- The state of the world. -/
structure World where
  now : Moment := .origin
  /-- Why the session has ended, if a cause came up that lasts. -/
  cause : Option Fault := none
  /-- When the session runs out of time. -/
  deadline : Option Moment := none
  /-- When the session is canceled from outside. -/
  canceled : Option Moment := none
  /-- True if somebody has woken up at this moment, ahead of the deadline that may be due at it. -/
  woken : Bool := false
  /-- Readings of the clock in place of the time of this world; the last one repeats. -/
  readings : Option (List Duration) := none
deriving Inhabited

namespace World

/-- True if the session has run out of time, and somebody has noticed. -/
def late (w : World) : Bool :=
  match w.deadline with
  | some m => m.ns < w.now.ns || (m.ns == w.now.ns && !w.woken)
  | none => false

/-- True if the session has been canceled from outside. -/
def called (w : World) : Bool :=
  match w.canceled with
  | some m => m.ns ≤ w.now.ns
  | none => false

/-- Why the session has ended: of several causes the one that came up first, and of two at the same
moment the deadline. -/
def ended (w : World) : Option Fault :=
  match w.cause with
  | some f => some f
  | none =>
    match w.late, w.called with
    | true, true =>
      if (w.canceled.map (·.ns)).getD 0 < (w.deadline.map (·.ns)).getD 0 then some .canceled
      else some .deadline
    | true, false => some .deadline
    | false, true => some .canceled
    | false, false => none

/-- Time passes; a session that ended on the way stays ended. -/
def pass (w : World) (d : Duration) : World :=
  let w := { w with cause := w.ended }
  let w := { w with now := w.now.sleep d, woken := w.woken || 0 < d.toInt }
  { w with cause := w.ended }

/-- What is due at this moment happens. -/
def settle (w : World) : World := { w with woken := false }

/-- A workload cancels the session, unless it has ended before. -/
def cancel (w : World) : World := { w with cause := some (w.ended.getD .canceled) }

/-- The next reading of the clock, given what the time of this world says. -/
def read (w : World) (actual : Duration) : Duration × World :=
  match w.readings with
  | none | some [] => (actual, w)
  | some [d] => (d, w)
  | some (d :: more) => (d, { w with readings := some more })

/-- Makes a call of a plan. -/
def call (w : World) (plan : Plan) (i : Nat) : Reply × World :=
  let reply := plan.reply i
  let later := w.pass reply.takes
  (reply, if reply.cancels then later.cancel else later)

/-- The world as surroundings of benchmarks. -/
def surroundings : Surroundings World where
  now w := w.now
  check w := (w.ended, w)
  clock w := (w.now, w)
  begin _ _ w := w
  finish plan i w := w.call plan i
  elapsed begun w := w.read (begun.since w.now)
  memory _ := {}

end World

end Stopwatch
