import Stopwatch.Dashboard.RunLog

/-!
# Figures

The panel at the top right of the dashboard: how much memory the program uses, and the summary of
the current benchmark so far. A benchmark is recognized by the name of its workload.
-/

namespace Stopwatch

/-- The memory use of the program. -/
structure MemoryFigures where
  /-- Bytes in use. -/
  allocated : UInt64 := 0
  /-- Bytes set aside. -/
  reserved : UInt64 := 0
  collections : UInt32 := 0
  /-- The time of all collections in nanoseconds. -/
  pauses : UInt64 := 0
  /-- The number of concurrent tasks. -/
  tasks : Int := 0
deriving DecidableEq, Inhabited

/-- What the panel shows. -/
structure Figures where
  memory : MemoryFigures := {}
  /-- The workload of the current benchmark. -/
  workload : Text := ∅
  /-- The samples of the current benchmark in the reporting unit, in order. -/
  samples : List Float := []
  /-- The summary of the current benchmark, as of its last run. -/
  summary : Summary := {}
deriving Inhabited

namespace Figures

/-- Takes a run into account; a new workload begins a new summary. -/
def add (f : Figures) (unit : TimeUnit) (p : RunProgress) : Figures :=
  let earlier := if p.workload == f.workload then f.samples else []
  let samples := earlier ++ [unit.count p.sample]
  { f with workload := p.workload, samples, summary := Summary.ofSamples samples }

/-- The summary that is kept is the one of the samples. -/
def Summed (f : Figures) : Prop := f.summary = Summary.ofSamples f.samples

theorem summed_empty : Summed {} := rfl

theorem summed_add (f : Figures) (unit : TimeUnit) (p : RunProgress) : (f.add unit p).Summed := rfl

/-! ## Text -/

/-- The line about memory. -/
def memoryLine (m : MemoryFigures) : Text :=
  "  Heap: " ++ bytesText m.allocated ++ " / " ++ bytesText m.reserved ++ " | GC: " ++
    Text.ofNat m.collections.toNat ++ " (" ++ FloatText.fixed 1 (m.pauses.toFloat / 1e6) ++ "ms)"

/-- A labelled value. -/
structure Field where
  label : Text
  value : Text
deriving DecidableEq, Inhabited

/-- A labelled value, padded to the width of its column. -/
def Field.text (f : Field) (column : Int) : Text :=
  Block.pad column.toNat (" " ++ f.label.padRight 12 ++ " " ++ Block.settle f.value)

/-- The rows of labelled values, each a left and a right one; a low panel has fewer rows. -/
def rows (f : Figures) (unit : TimeUnit) (height : Int64) : List (Field × Field) :=
  let s := f.summary
  let dash : Text := "-"
  let mean := if 0 < s.n then fixedText s.mean 3 ++ " " ++ unit.label else dash
  let deviation := if s.hasSpread then fixedText s.stddev 3 ++ " " ++ unit.label else dash
  let variation := if s.hasSpread then fixedText s.variation 2 ++ "%" else dash
  let range := if 0 < s.n then fixedText s.min 3 ++ "/" ++ fixedText s.max 3 else dash
  [(⟨"Runs:", Text.ofInt s.n⟩, ⟨"Goroutines:", Text.ofInt f.memory.tasks⟩),
    (⟨"Mean:", mean⟩, ⟨"Stdev:", deviation⟩)] ++
    if 7 ≤ height then [(⟨"CV:", variation⟩, ⟨"Min/Max:", range⟩)] else []

/-- The panel with a width and a height; none if it is too wide to be drawn. -/
def view? (f : Figures) (unit : TimeUnit) (width height : Int64) : Option Text :=
  let column := ((width - 6) / 2).toInt
  let line (r : Field × Field) : Text := r.1.text column ++ r.2.text column
  if !Block.isDrawable column then none
  else Block.panel? (width - 2) (height - 2)
    (Block.ofLines (memoryLine f.memory :: (f.rows unit height).map line))

end Figures

end Stopwatch
