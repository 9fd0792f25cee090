import Stopwatch.Benchmark

/-!
# Presentation of results

The lines that summarize one benchmark. Times are given in a reporting unit and with a number of
decimals that depends on the unit and on the workload, unless the user chose one.
-/

namespace Stopwatch

/-- How results are shown. -/
structure Presentation where
  unit : TimeUnit := {}
  /-- The number of decimals; a negative number leaves it to the workload. -/
  precision : Int := -1
  /-- Show the spread of every workload. -/
  spread : Bool := false
  /-- Show the samples and the memory use too. -/
  verbose : Bool := false
  /-- Show only the values. -/
  quiet : Bool := false
deriving Inhabited

namespace Presentation

/-- The number of decimals if the user chose none: two for milliseconds, four for seconds, none for
microseconds, and one more for a workload that reports its variation. -/
def defaultPrecision (w : Option Workload) (unit : TimeUnit) : Int :=
  let extra := if w.any (·.reportsVariation) then 1 else 0
  if unit.name == TimeUnit.seconds.name then 4 + extra
  else if unit.name == TimeUnit.microseconds.name then extra
  else 2 + extra

/-- The number of decimals for a result. -/
def precisionFor (p : Presentation) (r : Result) : Int :=
  if 0 ≤ p.precision then p.precision else defaultPrecision r.workload p.unit.orDefault

/-- The summary of a result in a unit. -/
def summaryIn (unit : TimeUnit) (r : Result) : Summary :=
  r.report.summary.scale (1.0 / unit.scale.seconds)

/-- Whether the standard deviation belongs to a result. -/
def wantsSpread (p : Presentation) (r : Result) : Bool :=
  p.spread || r.workload.any (·.reportsSpread)

/-- Whether the coefficient of variation belongs to a result. -/
def wantsVariation (p : Presentation) (r : Result) : Bool :=
  p.spread || r.workload.any (·.reportsVariation)

/-- What is said where a spread does not exist. -/
def tooFewRuns : Text := "n/a (needs at least 2 runs)"

/-- The decimals of a percentage. -/
def percentPrecision : Int := 2

/-- The line with the mean. -/
def averageLine (p : Presentation) (r : Result) : Text :=
  let unit := p.unit.orDefault
  let s := summaryIn unit r
  "📊 Average time over " ++ Text.ofInt s.n ++ " runs: " ++
    fixedText s.mean (p.precisionFor r) ++ " " ++ unit.label

/-- The line with the standard deviation; empty if it does not belong to the result. -/
def deviationLine (p : Presentation) (r : Result) : Text :=
  if p.wantsSpread r then
    let unit := p.unit.orDefault
    let s := summaryIn unit r
    "Standard deviation " ++ unit.label ++ ": " ++
      if s.hasSpread then fixedText s.stddev (p.precisionFor r) else tooFewRuns
  else ∅

/-- The line with the coefficient of variation; empty if it does not belong to the result. -/
def variationLine (p : Presentation) (r : Result) : Text :=
  if p.wantsVariation r then
    let s := summaryIn p.unit.orDefault r
    "CV (%): " ++ if s.hasSpread then fixedText s.variation percentPrecision else tooFewRuns
  else ∅

/-- The values of a result on one line: the name, the mean, and the spread as far as it is there. -/
def quietLine (p : Presentation) (r : Result) : Text :=
  let s := summaryIn p.unit.orDefault r
  let spread : List Text :=
    (if p.wantsSpread r && s.hasSpread then [fixedText s.stddev (p.precisionFor r)] else []) ++
      if p.wantsVariation r && s.hasSpread then [fixedText s.variation percentPrecision] else []
  Text.join " " ([r.name, fixedText s.mean (p.precisionFor r)] ++ spread)

/-- What the last run computed; empty if there is nothing to say. -/
def outcomeLine (theme : Theme) (r : Result) : Text :=
  let o := r.report.outcome
  let k := " (K=" ++ Whole.groupedNat o.iterations.toNat ++ ")"
  if 0 < o.primes then
    "Primes found: " ++ theme.paint theme.primary (Whole.grouped (Text.ofInt o.primes)) ++ k
  else if o.t1 != 0 || o.t2 != 0 then
    "Final pair: t1=" ++ theme.paint theme.primary (Text.ofNat o.t1.toNat) ++ " t2=" ++
      theme.paint theme.primary (Text.ofNat o.t2.toNat) ++ k
  else ∅

/-- A line of its own, unless it is empty. -/
def lineUnlessEmpty (t : Text) : Text := if t.isEmpty then ∅ else t ++ "\n"

/-- The samples of a result, one a line. -/
def sampleLines (p : Presentation) (r : Result) : Text :=
  if r.report.samples.isEmpty then ∅
  else
    let unit := p.unit.orDefault
    let line (d : Duration) (i : Nat) : Text :=
      "  Run " ++ Text.ofNat (i + 1) ++ ": " ++ fixedText (unit.count d) (p.precisionFor r) ++ "\n"
    "Samples " ++ unit.label ++ ":\n" ++ Text.concat (r.report.samples.mapIdx fun i d => line d i)

/-- The least, the middle and the greatest sample. -/
def rangeLine (p : Presentation) (r : Result) : Text :=
  let unit := p.unit.orDefault
  let s := summaryIn unit r
  let precision := p.precisionFor r
  if 0 < s.n then
    "Min/Median/Max " ++ unit.label ++ ": " ++ fixedText s.min precision ++ " / " ++
      fixedText s.median precision ++ " / " ++ fixedText s.max precision ++ "\n"
  else ∅

/-- A result with all its lines. -/
def fullText (p : Presentation) (theme : Theme) (r : Result) : Text :=
  let description : Text := match r.workload with
    | some w => " " ++ theme.paint theme.secondary ("(" ++ w.description ++ ")")
    | none => ∅
  "\n" ++ theme.paint theme.bold r.name ++ description ++ "\n" ++
    lineUnlessEmpty (outcomeLine theme r) ++
    theme.paint theme.success (p.averageLine r) ++ "\n" ++
    lineUnlessEmpty (p.deviationLine r) ++
    lineUnlessEmpty (p.variationLine r) ++
    if p.verbose then p.rangeLine r ++ p.sampleLines r ++ r.report.memory.text else ∅

/-- A result as the user asked for it. -/
def resultText (p : Presentation) (theme : Theme) (r : Result) : Text :=
  if p.quiet then p.quietLine r ++ "\n" else p.fullText theme r

end Presentation

end Stopwatch
