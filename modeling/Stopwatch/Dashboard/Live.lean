import Stopwatch.Benchmark.World
import Stopwatch.Dashboard
import Stopwatch.Session

/-!
# A dashboard at work

What the effects of a dashboard do. A session is run in a world with a clock, and what it tells is
turned into messages for the dashboard, each at its moment. `Live` is a dashboard with the world
around it, to which messages are given one by one. `Course.run` is a dashboard from its opening to
its end: keys are pressed at given moments, and the session's messages, the keys and the ticks reach
the dashboard in the order of time, until it asks to quit.
-/

namespace Stopwatch

namespace Dashboard

/-! ## Sessions -/

/-- How the workloads of a setup are timed. -/
def Setup.schedule (s : Setup) : Schedule := ⟨s.settings.runs.toInt, s.settings.iterations⟩

/-- The setup as it is after its workloads answered the calls of a session. -/
def Setup.after (s : Setup) (results : List Result) : Setup :=
  { s with
      workloads := List.zipWith (fun w r => w.after r.report.samples.length) s.workloads results }

/-- The messages about runs, each with the progress of the session at its moment. -/
def progressMessages (tracker : Progress.Tracker) : List (Timed Notice) → List (Timed Message)
  | [] => []
  | n :: more =>
    match n.value with
    | .update u =>
      let (tracker, s) := tracker.update n.time u
      let p : RunProgress :=
        { index := s.index, workload := u.workload, run := u.run, runs := u.runs, sample := u.sample
          value := s.value, average := s.average, left := s.left }
      ⟨n.time, .progress p⟩ :: progressMessages tracker more
    | _ => progressMessages tracker more

/-- The messages that an announcement gives rise to. -/
def announced (p : Presentation) : Announcement → List Message
  | .table results => [.comparison p results]
  | .result r => [.result p r]
  | .failure (some f) => [.failure 0 (some f)]
  | _ => []

/-- All messages of a session that began at a moment and has come to its end. -/
def sessionMessages (s : Setup) (generation : UInt64) (begun : Moment) (e : Session.Ended World) :
    List (Timed Message) :=
  let n := s.workloads.length
  let verdict := Verdict.ofResults e.results
  let runs :=
    if n == 0 then []
    else progressMessages (.start n begun) e.notices ++ [⟨e.state.now, .progressDone⟩]
  let told :=
    verdict.announcements.flatMap (announced s.presentation) ++
      [.complete generation verdict.exit verdict.ranking]
  runs ++ told.map fun m => ⟨e.state.now, m⟩

/-! ## One message at a time -/

/-- A dashboard with the world around it. -/
structure Live where
  board : Dashboard
  /-- The world around all sessions. -/
  world : World := {}
  /-- Why the current session has ended by itself, if the dashboard stopped it. -/
  stopped : Option Fault := none
  /-- What was last asked for. -/
  asked : List Effect := []

namespace Live

/-- A dashboard that has just been opened. -/
def fresh (s : Setup) (world : World) : Live := { board := .fresh s world.now, world }

/-- Why the current session has ended, if it has. -/
def ended (l : Live) : Option Fault := l.stopped.or l.world.ended

/-- What an effect does to the current session: it is stopped, or a new one takes its place. -/
def perform (l : Live) : Effect → Live
  | .stop _ => { l with stopped := some (l.ended.getD .canceled) }
  | .start _ => { l with stopped := none }
  | _ => l

/-- Gives a message to the dashboard. The world comes to rest while its effects are seen to. -/
def receive (l : Live) (m : Message) : Live :=
  let (board, effects) := l.board.update l.world.now m
  let world := if effects.isEmpty then l.world else l.world.settle
  let l := { l with board, world, asked := effects }
  effects.foldl perform l

/-- Time passes. -/
def pass (l : Live) (d : Duration) : Live := { l with world := l.world.pass d, asked := [] }

/-- Runs the current session to its end and tells the dashboard only that it is complete; none if
there is no room for its samples. -/
def runSession? (l : Live) : Option Live :=
  let setup := l.board.setup
  let world := { l.world with cause := l.ended }
  if !Session.isPossible World.surroundings setup.schedule setup.workloads world then none
  else
    let e := Session.run World.surroundings setup.schedule setup.workloads world
    let verdict := Verdict.ofResults e.results
    let l := { l with
      board := { l.board with setup := setup.after e.results }
      world := if l.stopped.isSome then l.world else e.state }
    some (l.receive (.complete l.board.generation verdict.exit verdict.ranking))

end Live

/-! ## A schedule of keys -/

/-- The generations of a dashboard: the first begins at a moment, and each key that restarts the
session cuts the current one short and begins the next. -/
def generations (s : Setup) (generation : UInt64) (world : World) :
    List Moment → List (Timed Message)
  | [] =>
    let e := Session.run World.surroundings s.schedule s.workloads world
    let cut :=
      (e.state.cause.map fun f =>
        (⟨e.state.now, .cutShort generation (some f)⟩ : Timed Message)).toList
    sessionMessages s generation world.now e ++ cut
  | restart :: more =>
    let e := Session.run World.surroundings s.schedule s.workloads
      { world with canceled := some restart }
    let next := { world with
      now := restart
      cause := if e.state.now.ns < restart.ns then e.state.cause else none }
    let cut : Timed Message := ⟨restart, .cutShort generation (some .canceled)⟩
    List.merge (sessionMessages s generation world.now e)
      (cut :: generations (s.after e.results) (generation + 1) next more)
      fun a b => a.time.ns ≤ b.time.ns

/-- The moments at which keys restart the session, up to the key that quits. -/
def restarts (keys : List (Timed Text)) : List Moment :=
  let before := keys.takeWhile fun k => Action.ofKey? k.value != some .quit
  (before.filter fun k => Action.ofKey? k.value == some .restart).map Timed.time

/-- All keys and all messages of sessions in the order of time; of those at one moment the keys come
first. -/
def timeline (s : Setup) (world : World) (keys : List (Timed Text)) : List (Timed Message) :=
  List.merge (keys.map fun k => ⟨k.time, .key k.value⟩) (generations s 0 world (restarts keys))
    fun a b => a.time.ns ≤ b.time.ns

/-- A dashboard on its way through a timeline. -/
structure Course where
  board : Dashboard
  /-- When ticks are due. -/
  ticks : List Moment := []
  /-- The messages that were delivered, the last one first. -/
  delivered : List Message := []
  /-- The moment of the last message. -/
  now : Moment := .origin
  /-- True once the dashboard has asked to quit. -/
  quit : Bool := false

namespace Course

/-- What an effect does: ticks become due, and samples are taken at once. -/
def perform (c : Course) : Effect → Course
  | .tick => { c with ticks := c.ticks ++ [c.now.after period] }
  | .sampleMemory =>
    let m := Message.memory {}
    { c with board := (c.board.update c.now m).1, delivered := m :: c.delivered }
  | .sampleLoad =>
    let m := Message.load 0.0 0.0
    { c with board := (c.board.update c.now m).1, delivered := m :: c.delivered }
  | .quit => { c with quit := true }
  | _ => c

/-- Delivers a message at a moment. -/
def deliver (c : Course) (m : Timed Message) : Course :=
  let (board, effects) := c.board.update m.time m.value
  let c := { c with board, now := m.time, delivered := m.value :: c.delivered }
  effects.foldl perform c

/-- The earliest tick that is due before a moment. -/
def dueBefore (c : Course) (limit : Moment) : Option Moment :=
  (c.ticks.filter fun t => t.ns ≤ limit.ns).foldl (fun found t =>
    match found with
    | some u => if t.ns < u.ns then some t else found
    | none => some t) none

/-- Delivers the ticks that are due before a moment, at most `n` of them. -/
def fire (limit : Moment) : Nat → Course → Course
  | 0, c => c
  | n + 1, c =>
    match c.dueBefore limit with
    | none => c
    | some t => fire limit n ({ c with ticks := c.ticks.erase t }.deliver ⟨t, .tick⟩)

/-- How many ticks can come up to a moment: each tick that is due leads to at most one every period.
-/
def ticksUpTo (c : Course) (limit : Moment) : Nat :=
  (c.ticks.map fun t => ((limit.ns - t.ns + period.toInt) / period.toInt).toNat).foldl (· + ·) 0

/-- Delivers the messages of a timeline and the ticks between them, until the dashboard asks to
quit. -/
def play : List (Timed Message) → Course → Course
  | [], c => c
  | m :: more, c =>
    let c := (fire m.time (c.ticksUpTo m.time) c).deliver m
    if c.quit then c else play more c

/-- The course of a dashboard from its opening on. -/
def run (s : Setup) (world : World) (keys : List (Timed Text)) : Course :=
  let opened : Course := { board := .fresh s world.now, now := world.now }
  play (timeline s world keys) ((opening 0).foldl perform opened)

end Course

end Dashboard

end Stopwatch
