import Stopwatch.Progress
import Stopwatch.Benchmark

/-!
# The progress line

While a session runs, a line names the benchmark that is running and shows the progress of the
session. The line is refreshed at regular ticks, and only if there is something new; at the end it
is brought up to date once more.
-/

namespace Stopwatch

namespace Progress

/-- How often the line is refreshed. -/
def refreshEvery : Duration := ⟨200000000⟩

/-- The length of the bar. -/
def barLength : Nat := 40

/-- The line after an update. With more than one benchmark it says which one is running. -/
def line (u : Update) (s : Snapshot) (several : Bool) : Text :=
  let label : Text := if u.workload.isEmpty then "Benchmarking" else u.workload
  let run : Text :=
    if 0 < u.runs then " run " ++ Text.ofInt u.run ++ "/" ++ Text.ofInt u.runs else ∅
  let place : Text := if several then " (benchmark " ++ Text.ofInt (u.index + 1) ++ ")" else ∅
  " " ++ label ++ run ++ place ++ " " ++ barLine s.average s.left barLength

/-- The state of the display. -/
structure Display where
  tracker : Tracker
  /-- The newest update with the progress it led to. -/
  last : Option (Update × Snapshot) := none
  /-- True if the newest update is not on the line yet. -/
  fresh : Bool := false
  /-- Whether there is more than one benchmark. -/
  several : Bool
  /-- The texts that the line has had, in order. -/
  shown : List Text := []

namespace Display

/-- The display of a session that begins. -/
def start (benchmarks : Int) (now : Moment) : Display :=
  { tracker := Tracker.start benchmarks now, several := 1 < benchmarks }

/-- An update arrives. -/
def receive (d : Display) (now : Moment) (u : Update) : Display :=
  let (tracker, snapshot) := d.tracker.update now u
  { d with tracker, last := some (u, snapshot), fresh := true }

/-- Brings the line up to date. -/
def refresh (d : Display) : Display :=
  match d.fresh, d.last with
  | true, some (u, s) => { d with fresh := false, shown := d.shown ++ [line u s d.several] }
  | _, _ => d

end Display

/-- The number of the last tick that has come by a moment, ticks being counted from the origin. -/
def ticksBy (m : Moment) : Int := m.ns.fdiv refreshEvery.toInt

/-- Updates with their moments of arrival, and the moment at which no more can come. The display is
refreshed at the first tick after an update that comes before the next one. -/
def Display.play (d : Display) (close : Moment) : List (Timed Update) → Display
  | [] => d.refresh
  | u :: us =>
    let d := d.receive u.time u.value
    let next := (us.head?.map Timed.time).getD close
    let d := if ticksBy u.time < ticksBy next then d.refresh else d
    d.play close us

/-- The texts of the line over a session; without benchmarks there is no line. -/
def lines? (benchmarks : Int) (updates : List (Timed Update)) (close : Moment) :
    Option (List Text) :=
  if benchmarks ≤ 0 then none
  else some ((Display.start benchmarks .origin).play close updates).shown

end Progress

end Stopwatch
