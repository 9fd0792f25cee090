import Stopwatch.GcMode
import Stopwatch.Settings.Environment
import Stopwatch.TimeUnit
import Stopwatch.Workload.Registry

/-!
# Acceptable settings

Checks beyond the form of each value. The checks come in a fixed order and the first that fails
names the fault. A request for a completion script is not checked, because the script depends on
nothing else.
-/

namespace Stopwatch

namespace Settings

/-- The greatest number of decimals. -/
def maxPrecision : Int64 := 12

/-- A fault unless a condition holds. -/
def require (ok : Bool) (message : Text) : Except Fault Unit :=
  if ok then .ok () else .error (.config message)

/-- The workloads whose limits an explicit number of iterations has to keep. -/
def selected (s : Settings) (workloads : List Text) : List Text :=
  if s.workload == Registry.all then workloads else [s.workload]

/-- An explicit number of iterations must be within the limit of every selected workload that is
built in; others have their limit checked when they run. -/
def checkIterations (s : Settings) (workloads : List Text) : Except Fault Unit :=
  if s.iterations == 0 then .ok ()
  else if Workload.maxIterations < s.iterations then
    .error (.config ("--iterations must be at most " ++
      Text.ofNat Workload.maxIterations.toNat ++ ", got " ++ Text.ofNat s.iterations.toNat))
  else
    let builtin := Registry.builtin { start := s.start }
    (s.selected workloads).forM fun name =>
      match builtin.get name with
      | .error _ => .ok ()
      | .ok w => require (s.iterations ≤ w.limit)
          ("--iterations " ++ Text.ofNat s.iterations.toNat ++
            " exceeds the " ++ name ++ " limit of " ++ Text.ofNat w.limit.toNat)

/-- The levels that the setting may name, in any letter case. -/
def levelWords : List Text := ["debug", "info", "warn", "warning", "error"]

/-- Checks settings against the names of the workloads that exist. -/
def check (s : Settings) (workloads : List Text) : Except Fault Unit := do
  if !s.completion.isEmpty then return
  require (1 ≤ s.runs) ("--runs must be at least 1, got " ++ Text.ofInt s.runs.toInt)
  require (s.workload == Registry.all || workloads.contains s.workload)
    ("unknown workload " ++ s.workload.quote ++ " (available: all, " ++
      Text.join ", " workloads ++ ")")
  s.checkIterations workloads
  require (TimeUnit.parse? s.unit).isSome ("unknown unit " ++ s.unit.quote ++ " (want ms, s or us)")
  require (-1 ≤ s.precision && s.precision ≤ maxPrecision)
    ("--precision must be between -1 and " ++ Text.ofInt maxPrecision.toInt ++ ", got " ++
      Text.ofInt s.precision.toInt)
  require (0 < s.timeout.toInt) ("--timeout must be positive, got " ++ s.timeout.text)
  require (!(s.quiet && s.verbose)) "--quiet and --verbose are mutually exclusive"
  require (!(s.quiet && s.dashboard)) "--quiet and --tui are mutually exclusive"
  require (!(s.printPrimes && s.dashboard)) "--print-primes and --tui are mutually exclusive"
  require (-1 ≤ s.pinCpu) ("--pin-cpu must be -1 or a CPU index, got " ++ Text.ofInt s.pinCpu.toInt)
  require (!s.verify || 2 ≤ s.verifyLimit)
    ("--verify-limit must be at least 2, got " ++ Text.ofInt s.verifyLimit.toInt)
  let _ ← (GcMode.parse s.gc).mapError fun f => .config f.message
  require (Theme.names.contains s.theme)
    ("unknown theme " ++ s.theme.quote ++ " (want " ++ Text.join " or " Theme.names ++ ")")
  require (levelWords.contains s.logLevel.lower) ("unknown log level " ++ s.logLevel.quote)

/-- Settings that could not be had: the fault, and what was printed about it. -/
structure Refusal where
  fault : Fault
  printed : Text := ∅

/-- The settings of an invocation. Before they are checked, what they leave to the host is filled
in. -/
def loadWith (fill : Settings → Settings) (program : Text) (args : List Text) (env : Environment)
    (workloads : List Text) : Except Refusal Settings :=
  match CommandLine.read args with
  | .error e => .error ⟨e.fault, e.notice ++ usage program workloads⟩
  | .ok line =>
    if !line.rest.isEmpty then
      .error { fault := .config ("unexpected arguments: " ++ Text.join " " line.rest) }
    else
      let s := fill (combine line.given env)
      match s.check workloads with
      | .error f => .error { fault := f }
      | .ok () => .ok s

/-- The settings of an invocation, on whatever host: nothing is filled in. -/
def load (program : Text) (args : List Text) (env : Environment) (workloads : List Text) :
    Except Refusal Settings :=
  loadWith id program args env workloads

end Settings

end Stopwatch
