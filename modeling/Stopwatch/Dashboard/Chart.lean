import Stopwatch.Dashboard.Plot
import Stopwatch.Dashboard.Ring
import Stopwatch.Dashboard.RunLog

/-!
# The chart

The panel at the bottom right of the dashboard: a dot plot of the run times of the current
benchmark, the progress of the session with the time left, and the load of the host as sparklines.
-/

namespace Stopwatch

/-- What the chart shows. -/
structure Chart where
  /-- The run times of the current benchmark in the reporting unit. -/
  samples : Ring := .empty 256
  /-- The processor load in percent. -/
  cpu : Ring := .empty 120
  /-- The memory load in percent. -/
  memory : Ring := .empty 120
  /-- How much of the session is done. -/
  progress : Float := 0.0
  /-- The estimate of the time left. -/
  left : Duration := 0
  /-- How long the session took, once it is done. -/
  doneIn : Duration := 0
deriving Inhabited

namespace Chart

/-- The columns of the histories of the load in a panel of a width. -/
def columns (width : Int64) : Int := (width - 14).toInt

/-- Fits the histories of the load to the width of the panel. -/
def fit (c : Chart) (width : Int64) : Chart :=
  if 0 < columns width then
    { c with cpu := c.cpu.resize (columns width), memory := c.memory.resize (columns width) }
  else c

/-- A new benchmark begins. -/
def begin (c : Chart) : Chart := { c with samples := c.samples.clear }

/-- Takes a run into account. -/
def add (c : Chart) (unit : TimeUnit) (p : RunProgress) : Chart :=
  { c with samples := c.samples.push (unit.count p.sample), progress := p.average, left := p.left }

/-- Takes the load of the host into account. -/
def addLoad (c : Chart) (cpu memory : Float) : Chart :=
  { c with cpu := c.cpu.push cpu, memory := c.memory.push memory }

/-- The session is done. -/
def finish (c : Chart) (spent : Duration) : Chart :=
  { c with progress := 1.0, left := 0, doneIn := spent }

/-- Forgets everything but the capacities. -/
def clear (c : Chart) : Chart :=
  { samples := c.samples.clear, cpu := c.cpu.clear, memory := c.memory.clear }

/-! ## Text -/

/-- A percentage with one decimal. -/
def percent (x : Float) : Text := (FloatText.fixed 1 x).padLeft 5 ++ "%"

/-- The bar of the session's progress; none for a progress that has no place on it. A panel too
narrow for a bar has no bar. -/
def bar? (c : Chart) (width : Int64) : Option Text :=
  let length := (width - 20).toInt
  if length < 4 then some ∅
  else
    let filled := (Binary.truncInt64 (c.progress * Binary.ofInt64 (width - 20))).toInt
    if filled < 0 || !Block.isDrawable length then none
    else
      let filled := min filled length
      some (" " ++ Text.replicate filled.toNat "█" ++
        Text.replicate (length - filled).toNat "░" ++ " " ++ percent (c.progress * 100.0))

/-- The title, with the range of the run times if there are any. -/
def title (unit : TimeUnit) (s : Plot.Scaled) : Text :=
  " Run times" ++
    if s.values.isEmpty then ∅
    else Block.settle (" (" ++ fixedText s.lo 3 ++ ".." ++ fixedText s.hi 3 ++
      " " ++ unit.label ++ ")")

/-- The time left, or the time the session took. -/
def timeLine (c : Chart) : Text :=
  if 0 < c.doneIn.toInt then " Done in " ++ c.doneIn.display
  else " ETA: " ++ Progress.leftText c.left

/-- The lines about the load. -/
def loadLines? (c : Chart) : Option (List Text) := do
  let cpu ← Plot.sparkline? c.cpu.toList
  let memory ← Plot.sparkline? c.memory.toList
  return [" CPU " ++ percent c.cpu.last ++ " " ++ cpu,
    " MEM " ++ percent c.memory.last ++ " " ++ memory]

/-- The least height that leaves room for the load. -/
def leastForLoad : Int64 := 10

/-- The panel with a width and a height; none if something in it cannot be drawn. -/
def view? (c : Chart) (unit : TimeUnit) (width height : Int64) : Option Text := do
  let scaled := Plot.rescale c.samples.toList
  let withLoad := leastForLoad ≤ height
  let plotRows := height - 2 - if withLoad then 6 else 4
  let plot ← Plot.lines? scaled.values (width - 4).toInt plotRows.toInt
  let bar ← c.bar? width
  let load ← if withLoad then c.loadLines? else some []
  Block.panel? (width - 2) (height - 2)
    (Block.ofLines ([title unit scaled] ++ plot.map (Text.spaces 1 ++ ·) ++
      [bar, c.timeLine] ++ load))

end Chart

end Stopwatch
