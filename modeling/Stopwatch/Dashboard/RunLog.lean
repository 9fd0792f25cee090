import Stopwatch.Dashboard.Action
import Stopwatch.Dashboard.Block
import Stopwatch.Presentation
import Stopwatch.Settings

/-!
# The run log

The lines on the left of the dashboard, each with the time it was added. The log keeps the newest
2000 lines. The user can scroll back: `offset` counts the lines below the window. The offset is
brought into range by scrolling; adding lines and resizing leave it as it is.
-/

namespace Stopwatch

/-- The log of a dashboard. -/
structure RunLog where
  /-- The lines, oldest first. -/
  entries : List Text := []
  /-- How many lines the window is scrolled up from the end. -/
  offset : Nat := 0
  /-- The height of the window with its frame. -/
  height : Int := 0
deriving Inhabited

/-- A run that was completed, and how far the session is. -/
structure RunProgress where
  /-- Which benchmark of the session it belongs to. -/
  index : Int := 0
  workload : Text := ∅
  /-- The number of the run, counted from one. -/
  run : Int := 0
  /-- How many runs are planned. -/
  runs : Int := 0
  /-- How long the run took. -/
  sample : Duration := 0
  /-- How much of the benchmark is done. -/
  value : Float := 0.0
  /-- How much of the session is done. -/
  average : Float := 0.0
  /-- The estimate of the time left. -/
  left : Duration := 0
deriving Inhabited

namespace RunLog

/-- The greatest number of lines. -/
def maxEntries : Nat := 2000

/-- Adds a line; beyond the greatest number the oldest lines are dropped. -/
def add (log : RunLog) (now : Moment) (line : Text) : RunLog :=
  let entries := log.entries ++ [now.timeText ++ " " ++ line]
  { log with entries := entries.drop (entries.length - maxEntries) }

/-- Adds lines. -/
def addAll (log : RunLog) (now : Moment) (lines : List Text) : RunLog :=
  lines.foldl (fun log line => log.add now line) log

/-- Removes all lines. -/
def clear (log : RunLog) : RunLog := { log with entries := [], offset := 0 }

/-! ## Window -/

/-- The number of lines in the window, at least one. -/
def page (log : RunLog) : Nat := (max (log.height - 2) 1).toNat

/-- Moves the window up by a number of lines, or down by a negative one, but not beyond the lines
that are there. -/
def scroll (log : RunLog) (up : Int) : RunLog :=
  { log with offset := (min (log.offset + up) ((log.entries.length : Int) - log.page)).toNat }

/-- How far an action scrolls. -/
def distance (log : RunLog) : Action → Int
  | .up => 1
  | .down => -1
  | .pageUp => log.page
  | .pageDown => -(log.page : Int)
  | _ => 0

/-- The lines that `n` rows show. -/
def visible (log : RunLog) (n : Nat) : List Text :=
  let shown := log.entries.take (log.entries.length - log.offset)
  shown.drop (shown.length - n)

/-- The log in a panel of a width and a height; none if it is too large to be drawn. -/
def view? (log : RunLog) (width height : Int64) : Option Text :=
  let inner := max (height - 2) 1
  Block.panel? (width - 2) inner (Block.ofLines (log.visible inner.toInt.toNat))

/-! ## Lines -/

/-- The lines about a session. -/
def sessionLines (workloads : List Text) (s : Settings) : List Text :=
  let iterations : Text :=
    if 0 < s.iterations then Whole.groupedNat s.iterations.toNat else "default"
  ["Workloads: " ++ Block.settle (Text.join ", " workloads),
    "Runs: " ++ Text.ofInt s.runs.toInt ++ ", iterations: " ++ iterations ++ ", GC: " ++
      s.gc ++ ", timeout: " ++ s.timeout.text]

/-- The line about a run. -/
def runLine (unit : TimeUnit) (p : RunProgress) : Text :=
  Block.settle p.workload ++ " run " ++ Text.ofInt p.run ++ "/" ++ Text.ofInt p.runs ++ ": " ++
    fixedText (unit.count p.sample) 3 ++ " " ++ unit.label

/-- The lines that compare results. -/
def comparisonLines (p : Presentation) (results : List Result) : List Text :=
  let line (r : Result) : Text :=
    match r.fault with
    | some f => r.name ++ ": " ++ f.message
    | none => p.quietLine r
  "--- Comparison ---" :: results.map fun r => Block.settle (line r)

/-- The lines about a completed benchmark. -/
def resultLines (p : Presentation) (r : Result) : List Text :=
  let details :=
    [Presentation.outcomeLine .plain r, p.averageLine r, p.deviationLine r, p.variationLine r]
  Block.settle r.name :: (details.filter fun t => !t.isEmpty).map Block.settle

/-- The line about a failure. -/
def failureLine (spent : Duration) (f : Option Fault) : Text :=
  let message : Text := match f with
    | some f => f.message
    | none => "<nil>"
  Block.settle ("Error after " ++ spent.display ++ ": " ++ message)

end RunLog

end Stopwatch
