import Stopwatch.Settings.CommandLine
import Stopwatch.Text.Fold

/-!
# The environment

A setting that the command line leaves alone takes the value of its environment variable, if that is
not empty and can be read; otherwise it keeps its default. Numbers are plain decimals here.
-/

namespace Stopwatch

/-- Environment variables, the first of a name counting. -/
structure Environment where
  entries : List (Text × Text)
deriving Inhabited

namespace Environment

/-- The value of a variable; empty if there is none. -/
def value (env : Environment) (name : Text) : Text :=
  ((env.entries.find? fun e => e.1 == name).map (·.2)).getD ∅

/-- True if there is a variable of that name, even an empty one. -/
def has (env : Environment) (name : Text) : Bool := env.entries.any fun e => e.1 == name

/-- True if the environment asks for output without colors. -/
def forbidsColor (env : Environment) : Bool := env.has "NO_COLOR"

end Environment

namespace Settings

/-- A variable that gives a setting its value, unless one of some flags was given. -/
structure Variable where
  /-- The name without the common beginning. -/
  name : Text
  /-- The names of the flags that count more. -/
  flags : List Text
  key : Key

/-- All variables. A completion script cannot be asked for by one. -/
def Variable.all : List Variable :=
  [ ⟨"RUNS", ["runs", "r"], .runs⟩,
    ⟨"ITERATIONS", ["iterations", "k"], .iterations⟩,
    ⟨"START", ["start"], .start⟩,
    ⟨"PRECISION", ["precision"], .precision⟩,
    ⟨"VERIFY_LIMIT", ["verify-limit"], .verifyLimit⟩,
    ⟨"VERIFY_WORKERS", ["verify-workers"], .verifyWorkers⟩,
    ⟨"PIN_CPU", ["pin-cpu"], .pinCpu⟩,
    ⟨"TIMEOUT", ["timeout"], .timeout⟩,
    ⟨"WORKLOAD", ["workload", "w"], .workload⟩,
    ⟨"UNIT", ["unit"], .unit⟩,
    ⟨"OUTPUT", ["output", "o"], .output⟩,
    ⟨"METRICS_ADDR", ["metrics-addr"], .metricsAddress⟩,
    ⟨"METRICS_FILE", ["metrics-file"], .metricsFile⟩,
    ⟨"GC", ["gc"], .gc⟩,
    ⟨"LOG_LEVEL", ["log-level"], .logLevel⟩,
    ⟨"THEME", ["theme"], .theme⟩,
    ⟨"PRINT_PRIMES", ["print-primes"], .printPrimes⟩,
    ⟨"SPREAD", ["spread"], .spread⟩,
    ⟨"QUIET", ["quiet", "q"], .quiet⟩,
    ⟨"VERBOSE", ["verbose", "v"], .verbose⟩,
    ⟨"NO_COLOR", ["no-color"], .noColor⟩,
    ⟨"TUI", ["tui"], .dashboard⟩,
    ⟨"VERIFY", ["verify"], .verify⟩ ]

/-- The value that a variable's text gives. -/
def Kind.readVariable? : (k : Kind) → Text → Option k.Value
  | .switch, t =>
    let word := t.lower
    if word == "true" || word == "1" || word == "yes" then some true
    else if word == "false" || word == "0" || word == "no" then some false
    else none
  | .text, t => some t
  | .int, t => (Whole.readInt64 t).toOption
  | .word, t => (Whole.readUInt64 t).toOption
  | .duration, t => Duration.read? t

/-- The text of the variable in an environment; empty if it is not set. -/
def Variable.text (v : Variable) (env : Environment) : Text := env.value (variableStem ++ v.name)

/-- The value that an environment gives; none if the text is empty or cannot be read. -/
def Variable.read? (v : Variable) (env : Environment) : Option v.key.Value :=
  if (v.text env).isEmpty then none else v.key.kind.readVariable? (v.text env)

/-- True if one of the flags that count more than the variable was given. -/
def Variable.isOverruled (v : Variable) (given : List Given) : Bool :=
  v.flags.any fun name => given.any fun g => g.flag.name == name

/-- Takes one setting from the environment, unless the command line has set it. -/
def takeVariable (env : Environment) (given : List Given) (s : Settings)
    (v : Variable) : Settings :=
  if v.isOverruled given then s
  else match v.read? env with
    | some x => s.set v.key x
    | none => s

/-- The settings that a command line and an environment give, before they are checked. -/
def combine (given : List Given) (env : Environment) : Settings :=
  Variable.all.foldl (takeVariable env given) (({} : Settings).assignAll given)

end Settings

end Stopwatch
