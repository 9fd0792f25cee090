import Stopwatch.Duration
import Stopwatch.Workload

/-!
# Settings

What one invocation of the program is asked to do. Each setting has a `Key`, the kind of its value,
and a place in the record `Settings`; `get` and `set` give access by key. Reading the command line
and the environment is written once for all keys, and the two laws `get_set_self` and
`get_set_of_ne` are all that an argument about precedence needs.
-/

namespace Stopwatch

/-- The settings of one invocation, with their defaults. -/
structure Settings where
  /-- The workload to time, or the word for every workload. -/
  workload : Text := "prime-scan"
  /-- The number of timed runs per workload. -/
  runs : Int64 := 100
  /-- The number of iterations per run; zero leaves it to each workload. -/
  iterations : UInt64 := 0
  /-- Where a prime scan starts. -/
  start : Int64 := 1
  /-- Print every prime that a prime scan finds. -/
  printPrimes : Bool := false
  /-- Report the spread for every workload. -/
  spread : Bool := false
  /-- The name of the reporting unit. -/
  unit : Text := "ms"
  /-- The number of decimals; minus one leaves it to each workload. -/
  precision : Int64 := -1
  /-- The longest time for the whole session. -/
  timeout : Duration := ⟨600000000000⟩
  /-- Print only the summary values. -/
  quiet : Bool := false
  /-- Print the samples too. -/
  verbose : Bool := false
  /-- Print without colors. -/
  noColor : Bool := false
  /-- Show the interactive dashboard. -/
  dashboard : Bool := false
  /-- The file that a report is written to; empty for none. -/
  output : Text := ∅
  /-- The address that metrics are served on; empty for none. -/
  metricsAddress : Text := ∅
  /-- The file that metrics are written to; empty for none. -/
  metricsFile : Text := ∅
  /-- Cross-check the primality predicate first. -/
  verify : Bool := false
  /-- The last number of the cross-check. -/
  verifyLimit : Int64 := 1000000
  /-- How many workers cross-check; zero or less leaves it to the host. -/
  verifyWorkers : Int64 := 0
  /-- The processor to stay on; minus one for none. -/
  pinCpu : Int64 := -1
  /-- How unused memory is collected. -/
  gc : Text := "default"
  /-- The least severity of journal entries. -/
  logLevel : Text := "info"
  /-- The color theme. -/
  theme : Text := "dark"
  /-- The shell to print a completion script for; empty for none. -/
  completion : Text := ∅
deriving DecidableEq, Inhabited

namespace Settings

/-- The settings by name. -/
inductive Key where
  | workload | runs | iterations | start | printPrimes | spread | unit | precision | timeout | quiet
  | verbose | noColor | dashboard | output | metricsAddress | metricsFile | verify | verifyLimit
  | verifyWorkers | pinCpu | gc | logLevel | theme | completion
deriving DecidableEq, Inhabited

/-- The kinds of values. -/
inductive Kind where
  /-- On or off. -/
  | switch
  | text
  /-- A signed number. -/
  | int
  /-- A number without a sign. -/
  | word
  | duration
deriving DecidableEq, Inhabited

/-- The values of a kind. -/
abbrev Kind.Value : Kind → Type
  | switch => Bool
  | text => Text
  | int => Int64
  | word => UInt64
  | duration => Duration

namespace Key

/-- The kind of a setting. -/
def kind : Key → Kind
  | workload | unit | output | metricsAddress | metricsFile | gc | logLevel | theme | completion =>
    .text
  | printPrimes | spread | quiet | verbose | noColor | dashboard | verify => .switch
  | runs | start | precision | verifyLimit | verifyWorkers | pinCpu => .int
  | iterations => .word
  | timeout => .duration

/-- The values of a setting. -/
abbrev Value (k : Key) : Type := k.kind.Value

end Key

/-- The value of a setting. -/
def get (s : Settings) : (k : Key) → k.Value
  | .workload => s.workload
  | .runs => s.runs
  | .iterations => s.iterations
  | .start => s.start
  | .printPrimes => s.printPrimes
  | .spread => s.spread
  | .unit => s.unit
  | .precision => s.precision
  | .timeout => s.timeout
  | .quiet => s.quiet
  | .verbose => s.verbose
  | .noColor => s.noColor
  | .dashboard => s.dashboard
  | .output => s.output
  | .metricsAddress => s.metricsAddress
  | .metricsFile => s.metricsFile
  | .verify => s.verify
  | .verifyLimit => s.verifyLimit
  | .verifyWorkers => s.verifyWorkers
  | .pinCpu => s.pinCpu
  | .gc => s.gc
  | .logLevel => s.logLevel
  | .theme => s.theme
  | .completion => s.completion

/-- The settings with one of them changed. -/
def set (s : Settings) : (k : Key) → k.Value → Settings
  | .workload, v => { s with workload := v }
  | .runs, v => { s with runs := v }
  | .iterations, v => { s with iterations := v }
  | .start, v => { s with start := v }
  | .printPrimes, v => { s with printPrimes := v }
  | .spread, v => { s with spread := v }
  | .unit, v => { s with unit := v }
  | .precision, v => { s with precision := v }
  | .timeout, v => { s with timeout := v }
  | .quiet, v => { s with quiet := v }
  | .verbose, v => { s with verbose := v }
  | .noColor, v => { s with noColor := v }
  | .dashboard, v => { s with dashboard := v }
  | .output, v => { s with output := v }
  | .metricsAddress, v => { s with metricsAddress := v }
  | .metricsFile, v => { s with metricsFile := v }
  | .verify, v => { s with verify := v }
  | .verifyLimit, v => { s with verifyLimit := v }
  | .verifyWorkers, v => { s with verifyWorkers := v }
  | .pinCpu, v => { s with pinCpu := v }
  | .gc, v => { s with gc := v }
  | .logLevel, v => { s with logLevel := v }
  | .theme, v => { s with theme := v }
  | .completion, v => { s with completion := v }

@[simp] theorem get_set_self (s : Settings) (k : Key) (v : k.Value) : (s.set k v).get k = v := by
  cases k <;> rfl

theorem get_set_of_ne (s : Settings) {j k : Key} (v : k.Value) (h : j ≠ k) :
    (s.set k v).get j = s.get j := by
  cases k <;> cases j <;> first | rfl | exact absurd rfl h

end Settings

end Stopwatch
