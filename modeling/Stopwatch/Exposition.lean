import Stopwatch.Benchmark

/-!
# Exposition of metrics

What benchmarks tell about their runs is collected in series, one for each workload, and written in
the text format that monitoring systems read: families by name, series by label, and for the
durations of runs a histogram with cumulative buckets.
-/

namespace Stopwatch

/-- The bounds of the histogram's buckets: each is twice the one before. -/
def bucketBounds : List Float := (List.range 20).map fun i => bound i
where
  /-- The bound of a bucket. -/
  bound : Nat → Float
    | 0 => 0.0001
    | i + 1 => bound i * 2.0

/-- The durations of the runs of one workload. -/
structure RunSeries where
  /-- How many runs fell into each bucket and no earlier one; one more for the rest. -/
  counts : List Nat := List.replicate 21 0
  /-- The seconds of all runs. -/
  sum : Float := 0.0
deriving Inhabited

namespace RunSeries

/-- The number of runs. -/
def count (s : RunSeries) : Nat := s.counts.foldl (· + ·) 0

/-- The place of a value: the first bucket whose bound it does not exceed. -/
def placeOf (x : Float) : Nat := (bucketBounds.takeWhile fun b => b < x).length

/-- The series with one more run. -/
def observe (s : RunSeries) (d : Duration) : RunSeries :=
  let x := d.seconds
  { counts := s.counts.modify (placeOf x) (· + 1), sum := s.sum + x }

/-- The number of runs up to each bound. -/
def cumulative (s : RunSeries) : List Nat :=
  (s.counts.foldl (fun (n, acc) c => (n + c, acc ++ [n + c])) (0, [])).2

end RunSeries

/-- Series by label, sorted. -/
abbrev Labelled (α : Type) := List (Text × α)

/-- Changes the series of a label; a label without one starts from `fresh`. -/
def Labelled.alter {α : Type} (fresh : α) (f : α → α) (label : Text) : Labelled α → Labelled α
  | [] => [(label, f fresh)]
  | (l, a) :: rest =>
    if l == label then (l, f a) :: rest
    else if l.le label then (l, a) :: alter fresh f label rest
    else (label, f fresh) :: (l, a) :: rest

/-- All that was told about runs. -/
structure Recorder where
  runs : Labelled RunSeries := []
  means : Labelled Float := []
  deviations : Labelled Float := []
  primes : Labelled Float := []
deriving Inhabited

namespace Recorder

/-- Takes notice of what a benchmark tells. -/
def notice (r : Recorder) : Notice → Recorder
  | .run workload d => { r with runs := r.runs.alter {} (·.observe d) workload }
  | .summary workload s =>
    { r with
      means := r.means.alter 0.0 (fun _ => s.mean) workload
      deviations := if s.hasSpread then r.deviations.alter 0.0 (fun _ => s.stddev) workload
        else r.deviations }
  | .primes workload n =>
    { r with primes := r.primes.alter 0.0 (fun _ => Binary.ofInt64 (Int64.ofInt n)) workload }
  | _ => r

/-- True if a notice can be taken: a label must be UTF-8. -/
def accepts : Notice → Bool
  | .run workload _ => workload.isUtf8
  | .summary workload _ => workload.isUtf8
  | .primes workload _ => workload.isUtf8
  | _ => true

/-- Takes notice of all that a session tells. -/
def ofNotices (ns : List (Timed Notice)) : Recorder := ns.foldl (fun r n => r.notice n.value) {}

end Recorder

namespace Exposition

/-- The value of a sample. -/
def valueText (x : Float) : Text := if x == 0.0 then "0" else FloatText.general.write x

/-- A count as the value of a sample. -/
def countText (n : Nat) : Text := valueText n.toFloat

/-- A label's value: backslashes, quotes and line breaks are escaped. -/
def labelText (t : Text) : Text :=
  ⟨t.bytes.flatMap fun b =>
    if b == 0x5c then [0x5c, 0x5c] else if b == 0x0a then [0x5c, 0x6e]
    else if b == 0x22 then [0x5c, 0x22] else [b]⟩

/-- One sample, labelled under a key, with more labels after that. -/
def labelled (key name label more value : Text) : Text :=
  name ++ "\x7b" ++ key ++ "=\"" ++ labelText label ++ "\"" ++ more ++ "\x7d " ++ value ++ "\n"

/-- One sample of a workload, with more labels after the workload's own. -/
def sample (name workload more value : Text) : Text := labelled "workload" name workload more value

/-- A family: its explanation and type, then its samples. A family without samples is left out. -/
def family (name kind help : Text) (samples : List Text) : Text :=
  if samples.isEmpty then ∅
  else
    "# HELP " ++ name ++ " " ++ help ++ "\n# TYPE " ++ name ++ " " ++ kind ++
      "\n" ++ Text.concat samples

/-- A family with one value for each workload. -/
def plainFamily (name kind help : Text) (series : Labelled Float) : Text :=
  family name kind help (series.map fun (w, x) => sample name w ∅ (valueText x))

/-- The samples of a histogram. -/
def histogram (name : Text) (workload : Text) (s : RunSeries) : Text :=
  let bounds : List Text := bucketBounds.map valueText ++ [("+Inf" : Text)]
  let bucket (bound : Text) (n : Nat) : Text :=
    sample (name ++ "_bucket") workload (",le=\"" ++ bound ++ "\"") (countText n)
  Text.concat (List.zipWith bucket bounds s.cumulative) ++
    sample (name ++ "_sum") workload ∅ (valueText s.sum) ++
    sample (name ++ "_count") workload ∅ (countText s.count)

/-- The families of the metrics of benchmarks, by name. -/
def families (r : Recorder) : List (Text × Text) :=
  [ ("microbench_mean_seconds",
      plainFamily "microbench_mean_seconds" "gauge"
      "Mean run duration of the last completed benchmark." r.means),
    ("microbench_primes_found",
      plainFamily "microbench_primes_found" "gauge"
      "Primes found by the last run of a prime workload." r.primes),
    ("microbench_run_duration_seconds",
      family "microbench_run_duration_seconds" "histogram" "Wall-clock duration of one timed run."
        (r.runs.map fun (w, s) => histogram "microbench_run_duration_seconds" w s)),
    ("microbench_runs_total",
      plainFamily "microbench_runs_total" "counter" "Number of completed timed runs."
        (r.runs.map fun (w, s) => (w, s.count.toFloat))),
    ("microbench_stddev_seconds",
      plainFamily "microbench_stddev_seconds" "gauge"
        "Sample standard deviation of run durations of the last completed benchmark."
        r.deviations) ]

/-- Families in the order of their names. -/
def ordered (fs : List (Text × Text)) : Text :=
  Text.concat ((fs.mergeSort fun a b => a.1.le b.1).map (·.2))

/-- The metrics of benchmarks in the text format. -/
def text (r : Recorder) : Text := ordered (families r)

end Exposition

end Stopwatch
