import Stopwatch.Moment
import Stopwatch.Room
import Stopwatch.TimeUnit

/-!
# Progress of a session

Each completed run of a benchmark is announced by an `Update`. A `Tracker` keeps the progress of
every benchmark, and from the pace at which the average grows it estimates the time that is left.

The pace is an exponentially weighted average of the growth per second, taken only at updates that
make the average grow and come later than the last such update.
-/

namespace Stopwatch

namespace Progress

/-- A completed run. -/
structure Update where
  /-- Which benchmark of the session it belongs to. -/
  index : Int := 0
  workload : Text := ∅
  /-- The number of the run, counted from one. -/
  run : Int := 0
  /-- How many runs are planned. -/
  runs : Int := 0
  /-- How long the run took. -/
  sample : Duration := 0
  /-- How much of the benchmark is done. -/
  value : Float := 0.0
deriving Inhabited

/-- The update for a run of a benchmark; without planned runs the benchmark counts as done. -/
def Update.ofRun (index : Int) (workload : Text) (run runs : Int) (sample : Duration) : Update :=
  { index, workload, run, runs, sample
    value :=
      if 0 < runs then Binary.ofInt64 (Int64.ofInt run) / Binary.ofInt64 (Int64.ofInt runs)
      else 1.0 }

/-- True of the last run's update. -/
def Update.done (u : Update) : Bool := u.runs ≤ u.run

/-- How many of `count` updates a channel with room for `capacity` holds, nobody reading; none if
there is no channel. -/
def buffered (channel : Option Nat) (count : Nat) : Nat :=
  match channel with
  | none => 0
  | some capacity => min capacity count

/-- True if there can be a channel with room for that many updates. An update has 56 bytes. -/
def hasChannel (capacity : Int) : Bool := Room.holds 56 capacity

/-! ## Slots -/

/-- A value brought into the range from zero to one; what is no number stays. -/
def clampUnit (x : Float) : Float := if x < 0.0 then 0.0 else if 1.0 < x then 1.0 else x

/-- The progress of each benchmark. -/
structure State where
  slots : List Float
deriving Inhabited

namespace State

/-- Nothing done yet in any of `n` benchmarks. -/
def start (n : Int) : State := ⟨List.replicate n.toNat 0.0⟩

/-- True if there can be a state of `n` benchmarks. A slot has eight bytes. -/
def isPossible (n : Int) : Bool := Room.holds 8 (max n 0)

/-- Records the progress of one benchmark; an index out of range changes nothing. -/
def set (s : State) (index : Int) (value : Float) : State :=
  if index < 0 then s else ⟨s.slots.set index.toNat (clampUnit value)⟩

/-- The average over all benchmarks. -/
def average (s : State) : Float :=
  if s.slots.isEmpty then 0.0 else s.slots.foldl (· + ·) 0.0 / s.slots.length.toFloat

end State

/-! ## Time left -/

/-- The longest time that is ever estimated. -/
def longest : Duration := Duration.ofInt 86400000000000

/-- The time left at an average progress and a pace. -/
def timeLeft (pace average : Float) : Duration :=
  if pace ≤ 0.0 || 1.0 ≤ average then 0
  else
    let seconds := (1.0 - average) / pace
    if longest.seconds ≤ seconds then longest
    else ⟨Binary.truncInt64 (seconds * 1000000000.0)⟩

/-- The progress of a session and its pace. -/
structure Tracker where
  state : State
  /-- When the pace was last taken. -/
  taken : Moment
  /-- The average progress at that time. -/
  reached : Float := 0.0
  /-- Progress per second. -/
  pace : Float := 0.0
deriving Inhabited

namespace Tracker

/-- A tracker for `n` benchmarks from a moment on. -/
def start (n : Int) (now : Moment) : Tracker := { state := State.start n, taken := now }

/-- The estimate of the time left. -/
def left (t : Tracker) : Duration := timeLeft t.pace t.state.average

/-- Records the progress of a benchmark. -/
def record (t : Tracker) (now : Moment) (index : Int) (value : Float) : Tracker :=
  let state := t.state.set index value
  let average := state.average
  let elapsed := (t.taken.since now).seconds
  if 0.0 < elapsed && t.reached < average then
    let rate := (average - t.reached) / elapsed
    { state, taken := now, reached := average
      pace := if t.pace == 0.0 then rate else 0.3 * rate + 0.7 * t.pace }
  else { t with state }

end Tracker

/-- What a display is told after an update. -/
structure Snapshot where
  index : Int := 0
  value : Float := 0.0
  average : Float := 0.0
  left : Duration := 0
deriving Inhabited

/-- Takes an update into a tracker. -/
def Tracker.update (t : Tracker) (now : Moment) (u : Update) : Tracker × Snapshot :=
  let t := t.record now u.index u.value
  (t, { index := u.index, value := u.value, average := t.state.average, left := t.left })

/-! ## Text -/

/-- Hours and minutes, or minutes and seconds if there is no hour; what is zero is left out. -/
def clockText (h m s : Int64) : Text :=
  if 0 < h ∧ 0 < m then Text.ofInt h.toInt ++ "h" ++ Text.ofInt m.toInt ++ "m"
  else if 0 < h then Text.ofInt h.toInt ++ "h"
  else if 0 < m ∧ 0 < s then Text.ofInt m.toInt ++ "m" ++ Text.ofInt s.toInt ++ "s"
  else if 0 < m then Text.ofInt m.toInt ++ "m"
  else Text.ofInt s.toInt ++ "s"

/-- The time left, to the second below an hour and to the minute from there on. Hours, minutes and
seconds are the whole parts of floats. -/
def leftText (left : Duration) : Text :=
  if left.toInt ≤ 0 then "calculating..."
  else if left.toInt < 1000000000 then "< 1s"
  else
    let rounded := left.round Duration.second
    clockText (Binary.truncInt64 rounded.hours) (Binary.truncInt64 rounded.minutes % 60)
      (Binary.truncInt64 rounded.seconds % 60)

/-- A bar of the given length. -/
def bar (progress : Float) (length : Nat) : Text :=
  let filled := (Binary.truncInt64 (clampUnit progress * length.toFloat)).toInt.toNat
  Text.replicate (min filled length) "█" ++ Text.replicate (length - filled) "░"

/-- True if there can be a bar of that length. Each of its characters has three bytes. -/
def hasBar (length : Int) : Bool := Room.holds 3 length

/-- A bar with the percentage and the time left. -/
def barLine (progress : Float) (left : Duration) (length : Nat) : Text :=
  "[" ++ bar progress length ++ "] " ++
    (FloatText.fixed 1 (clampUnit progress * 100.0)).padLeft 5 ++ "% ETA: " ++ leftText left

end Progress

end Stopwatch
