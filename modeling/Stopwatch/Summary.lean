import Stopwatch.Duration
import Stopwatch.Sorting.Pattern

/-!
# Summaries

The mean, spread, extremes and median of a list of samples. The samples are sorted first, so a
summary does not depend on their order. All sums run over the sorted samples from left to right, one
rounding per operation.
-/

namespace Stopwatch

/-- The summary of samples in one unit. -/
structure Summary where
  /-- The number of samples. -/
  n : Int := 0
  mean : Float := 0.0
  /-- The sample standard deviation; zero without spread. -/
  stddev : Float := 0.0
  /-- The standard deviation in percent of the mean; zero without spread. -/
  variation : Float := 0.0
  min : Float := 0.0
  max : Float := 0.0
  median : Float := 0.0
  /-- Whether there are enough samples for a standard deviation. -/
  hasSpread : Bool := false
deriving Inhabited

namespace Summary

/-- The order of samples: what is no number comes first. -/
def sampleBefore (x y : Float) : Bool := x < y || (x.isNaN && !y.isNaN)

/-- True if there are zeros of both signs. They compare equal and are not alike. -/
def hasBothZeros (xs : List Float) : Bool :=
  xs.any (fun x => x.toBits == 0) && xs.any fun x => x.toBits == (-0.0 : Float).toBits

/-- Samples in increasing order. Among samples of which equal ones are alike there is only one such
order; which of two zeros comes first is left to the pattern sort. -/
def sorted (xs : List Float) : List Float :=
  if hasBothZeros xs then Sorting.byPattern sampleBefore xs
  else xs.mergeSort fun x y => !sampleBefore y x

/-- The running mean of the samples that follow the first `i`. -/
def meanFrom : Nat → Float → List Float → Float
  | _, m, [] => m
  | i, m, x :: xs => meanFrom (i + 1) (m + (x - m) / (i + 1).toFloat) xs

/-- The mean of samples. -/
def meanOf (xs : List Float) : Float := meanFrom 0 0.0 xs

/-- The sum of squared distances from the mean, updated sample by sample. -/
def squaresFrom : Nat → Float → Float → List Float → Float
  | _, _, m2, [] => m2
  | i, mean, m2, x :: xs =>
    let delta := x - mean
    let mean := mean + delta / (i + 1).toFloat
    squaresFrom (i + 1) mean (m2 + delta * (x - mean)) xs

/-- The sample standard deviation. -/
def stddevOf (xs : List Float) : Float := (squaresFrom 0 0.0 0.0 xs / (xs.length - 1).toFloat).sqrt

/-- The median of sorted samples, interpolated between neighbours. -/
def medianOf (xs : List Float) : Float :=
  let third : Float := 1.0 / 3.0
  let n := third + 0.5 * (xs.length.toFloat + third)
  let k := (Binary.truncInt64 n).toInt
  let frac := n - Binary.ofInt64 (Int64.ofInt k)
  if k ≤ 0 then xs.headD 0.0
  else if (xs.length : Int) ≤ k then xs.getLastD 0.0
  else
    let a := xs.getD (k.toNat - 1) 0.0
    let b := xs.getD k.toNat 0.0
    a + frac * (b - a)

/-- The summary of sorted samples, `n` of them. -/
def ofSorted (n : Nat) (xs : List Float) : Summary :=
  let mean := meanOf xs
  let base : Summary :=
    { n, mean, min := xs.headD 0.0, max := xs.getLastD 0.0, median := medianOf xs }
  if n < 2 then base
  else
    let sd := stddevOf xs
    { base with
      hasSpread := true
      stddev := sd
      variation := if mean == 0.0 then 0.0 else 100.0 * sd / mean }

/-! ## Samples in memory -/

/-- Arrays of samples. Each is known by its number, and a new one gets the next number. -/
structure Arrays where
  held : List (List Float)

namespace Arrays

/-- The samples of an array. -/
def read (m : Arrays) (i : Nat) : List Float := m.held.getD i []

/-- Overwrites an array. -/
def write (m : Arrays) (i : Nat) (xs : List Float) : Arrays := ⟨m.held.set i xs⟩

/-- A new array, and its number. -/
def make (m : Arrays) (xs : List Float) : Nat × Arrays := (m.held.length, ⟨m.held ++ [xs]⟩)

variable {m : Arrays} {i j : Nat} {xs : List Float}

theorem read_make : (m.make xs).2.read (m.make xs).1 = xs := by simp [read, make]

theorem read_make_of_lt (h : i < m.held.length) : (m.make xs).2.read i = m.read i := by
  simp [read, make, List.getElem?_append_left h]

theorem read_write (h : i < m.held.length) : (m.write i xs).read i = xs := by simp [read, write, h]

theorem read_write_of_ne (h : j ≠ i) : (m.write i xs).read j = m.read j := by
  simp [read, write, List.getElem?_set_ne h.symm]

theorem fst_make_lt : (m.make xs).1 < (m.make xs).2.held.length := by simp [make]

end Arrays

/-- The summary of an array, and the arrays afterwards; no samples give the empty summary. The
samples are copied, and the copy is sorted in its place. -/
def summarize (i : Nat) (m : Arrays) : Summary × Arrays :=
  let samples := m.read i
  if samples.isEmpty then ({}, m)
  else
    let (copy, m) := m.make samples
    let m := m.write copy (sorted (m.read copy))
    (ofSorted samples.length (m.read copy), m)

/-- The summary of samples. -/
def ofSamples (samples : List Float) : Summary := (summarize 0 ⟨[samples]⟩).1

theorem fst_summarize (i : Nat) (m : Arrays) :
    (summarize i m).1 =
      if (m.read i).isEmpty then {} else ofSorted (m.read i).length (sorted (m.read i)) := by
  unfold summarize
  cases h : (m.read i).isEmpty with
  | true => simp only [h, if_true]
  | false =>
    simp only [h, Bool.false_eq_true, if_false]
    rw [Arrays.read_write Arrays.fst_make_lt, Arrays.read_make]

theorem ofSamples_eq (samples : List Float) :
    ofSamples samples = if samples.isEmpty then {} else ofSorted samples.length (sorted samples) :=
  fst_summarize 0 ⟨[samples]⟩

theorem n_ofSamples (samples : List Float) : (ofSamples samples).n = samples.length := by
  rw [ofSamples_eq]
  split
  · rename_i h
    rw [List.isEmpty_iff.mp h]
    rfl
  · unfold ofSorted
    dsimp only
    split <;> rfl

/-- The summary with every field that has a unit multiplied by a factor. -/
def scale (s : Summary) (factor : Float) : Summary :=
  { s with
    mean := s.mean * factor
    stddev := s.stddev * factor
    min := s.min * factor
    max := s.max * factor
    median := s.median * factor }

/-- Durations counted in a unit; a unit without length counts as a second. -/
def fromDurations (ds : List Duration) (unit : Duration) : List Float :=
  let unit := if unit.toInt ≤ 0 then Duration.second else unit
  ds.map fun d => d.toFloat / unit.toFloat

/-- The summary of durations in seconds. -/
def ofDurations (ds : List Duration) : Summary := ofSamples (fromDurations ds Duration.second)

end Summary

end Stopwatch
