import Stopwatch.Settings

/-!
# The command line

An argument `-name` or `--name` sets a setting; its value follows after `=` or, except for switches,
is the next argument. The first argument that is no flag ends the flags, and so does `--`, which is
dropped. Reading gives the flags with their values in the order in which they stand, or the first
thing that is wrong.

Numbers may carry a base mark and underscores.
-/

namespace Stopwatch

namespace Settings

/-- A name of a setting on the command line. -/
structure Flag where
  name : Text
  key : Key
  /-- The explanation in the usage text. -/
  usage : Text

/-- All flags. -/
def flags : List Flag :=
  [ ⟨"workload", .workload, "Workload to time ('all' runs every workload)"⟩,
    ⟨"w", .workload, "Shorthand for --workload"⟩,
    ⟨"runs", .runs, "Number of timed runs"⟩,
    ⟨"r", .runs, "Shorthand for --runs"⟩,
    ⟨"iterations", .iterations, "Inner iterations per run (0 = workload default)"⟩,
    ⟨"k", .iterations, "Shorthand for --iterations"⟩,
    ⟨"start", .start, "Initial counter value of the prime scan"⟩,
    ⟨"print-primes", .printPrimes, "Print primes found by the prime scan"⟩,
    ⟨"spread", .spread, "Always report standard deviation and CV"⟩,
    ⟨"unit", .unit, "Reporting unit: ms, s or us"⟩,
    ⟨"precision", .precision, "Decimals in summary lines (-1 = workload default)"⟩,
    ⟨"timeout", .timeout, "Maximum duration of the whole session"⟩,
    ⟨"quiet", .quiet, "Print only the summary values"⟩,
    ⟨"q", .quiet, "Shorthand for --quiet"⟩,
    ⟨"verbose", .verbose, "Print per-run samples and debug logs"⟩,
    ⟨"v", .verbose, "Shorthand for --verbose"⟩,
    ⟨"no-color", .noColor, "Disable colored output"⟩,
    ⟨"tui", .dashboard, "Run the interactive dashboard"⟩,
    ⟨"output", .output, "Write a JSON report to this file"⟩,
    ⟨"o", .output, "Shorthand for --output"⟩,
    ⟨"metrics-addr", .metricsAddress, "Serve Prometheus metrics on this address while running"⟩,
    ⟨"metrics-file", .metricsFile, "Write Prometheus metrics to this textfile when done"⟩,
    ⟨"verify", .verify, "Cross-check the primality predicate before timing"⟩,
    ⟨"verify-limit", .verifyLimit, "Upper bound of the --verify range"⟩,
    ⟨"verify-workers", .verifyWorkers, "Goroutines used by --verify (0 = adaptive)"⟩,
    ⟨"pin-cpu", .pinCpu, "Pin the benchmark thread to this CPU (-1 = off)"⟩,
    ⟨"gc", .gc, "Garbage collector handling: default, collect or disabled"⟩,
    ⟨"log-level", .logLevel, "Log level: debug, info, warn, error"⟩,
    ⟨"theme", .theme, "Color theme: dark or light"⟩,
    ⟨"completion", .completion, "Print a completion script: bash, zsh, fish or powershell"⟩ ]

/-- What can be wrong with the command line. -/
inductive FlagError where
  /-- The argument is no flag that can be read. -/
  | badSyntax (argument : Text)
  /-- There is no flag of that name. -/
  | undefined (name : Text)
  /-- The value does not follow. -/
  | missingValue (name : Text)
  /-- A switch's value is neither on nor off. -/
  | badSwitch (name value : Text)
  /-- The value cannot be read. -/
  | badValue (name value : Text) (reason : Whole.ReadError)
  /-- The usage text is asked for. -/
  | help
deriving DecidableEq

namespace FlagError

/-- Why a value cannot be read. -/
def reasonText : Whole.ReadError → Text
  | .malformed => "parse error"
  | .outOfRange => "value out of range"

/-- The fault that the program ends with. -/
def fault : FlagError → Fault
  | badSyntax argument => .plain ("bad flag syntax: " ++ argument)
  | undefined name => .plain ("flag provided but not defined: -" ++ name)
  | missingValue name => .plain ("flag needs an argument: -" ++ name)
  | badSwitch name value =>
    .plain ("invalid boolean value " ++ value.quote ++ " for -" ++ name ++ ": parse error")
  | badValue name value reason =>
    .plain ("invalid value " ++ value.quote ++ " for flag -" ++ name ++ ": " ++ reasonText reason)
  | help => .help

/-- What is printed before the usage text. -/
def notice : FlagError → Text
  | help => ∅
  | e => e.fault.message ++ "\n"

end FlagError

/-! ## Values -/

/-- The words for on. -/
def onWords : List Text := ["1", "t", "T", "TRUE", "true", "True"]

/-- The words for off. -/
def offWords : List Text := ["0", "f", "F", "FALSE", "false", "False"]

/-- The value that a flag's text gives. -/
def Kind.read : (k : Kind) → Text → Except Whole.ReadError k.Value
  | .switch, t =>
    if onWords.contains t then .ok true
    else if offWords.contains t then .ok false else .error .malformed
  | .text, t => .ok t
  | .int, t => Whole.readMarkedInt64 t
  | .word, t => Whole.readMarkedUInt64 t
  | .duration, t => match Duration.read? t with
    | some d => .ok d
    | none => .error .malformed

/-- The fault of a value that cannot be read. -/
def Flag.refuse (f : Flag) (value : Text) (reason : Whole.ReadError) : FlagError :=
  if f.key.kind = .switch then .badSwitch f.name value else .badValue f.name value reason

/-- A flag that was given, with its value. -/
structure Given where
  flag : Flag
  value : flag.key.Value

/-- The flag with the value that a text gives. -/
def Flag.give (f : Flag) (value : Text) : Except FlagError Given :=
  match f.key.kind.read value with
  | .ok v => .ok ⟨f, v⟩
  | .error reason => .error (f.refuse value reason)

/-- The settings after a flag. -/
def assign (s : Settings) (g : Given) : Settings := s.set g.flag.key g.value

/-- The settings after flags, the first one first. -/
def assignAll (s : Settings) (gs : List Given) : Settings := gs.foldl assign s

/-! ## Arguments -/

/-- The flag of a name. -/
def flag? (name : Text) : Option Flag := flags.find? fun f => f.name == name

/-- A flag's text split into its name and the value after `=`. -/
def splitValue (body : Text) : Text × Option Text :=
  match body.bytes with
  | [] => (∅, none)
  | b :: bs =>
    match bs.dropWhile (· != 0x3d) with
    | [] => (body, none)
    | _ :: value => (⟨b :: bs.takeWhile (· != 0x3d)⟩, some ⟨value⟩)

/-- What an argument is. -/
inductive Argument where
  /-- The flags end here. -/
  | plain
  /-- The mark that ends the flags. -/
  | terminator
  /-- A flag that cannot be read. -/
  | malformed
  /-- A flag by its name, with the value after `=`. -/
  | flag (name : Text) (value : Option Text)
deriving DecidableEq

/-- Reads an argument as far as its form goes. -/
def Argument.ofText (t : Text) : Argument :=
  match t.bytes with
  | 0x2d :: 0x2d :: [] => .terminator
  | 0x2d :: 0x2d :: body => named body
  | 0x2d :: b :: bs => named (b :: bs)
  | _ => .plain
where
  /-- A flag without its leading marks. -/
  named (body : List UInt8) : Argument :=
    match body with
    | 0x2d :: _ | 0x3d :: _ | [] => .malformed
    | _ => let (name, value) := splitValue ⟨body⟩; .flag name value

/-- What the command line says. -/
structure CommandLine where
  /-- The flags in order. -/
  given : List Given := []
  /-- The arguments after the flags. -/
  rest : List Text := []

/-- The command line with one more flag in front. -/
def CommandLine.cons (g : Given) (c : CommandLine) : CommandLine := { c with given := g :: c.given }

/-- Reads the arguments after the program's name. -/
def CommandLine.read : List Text → Except FlagError CommandLine
  | [] => .ok {}
  | t :: ts =>
    match Argument.ofText t with
    | .plain => .ok { rest := t :: ts }
    | .terminator => .ok { rest := ts }
    | .malformed => .error (.badSyntax t)
    | .flag name value =>
      match flag? name with
      | none => .error (if name == "help" || name == "h" then .help else .undefined name)
      | some f =>
        match value, f.key.kind, ts with
        | some v, _, ts => follow (f.give v) (read ts)
        | none, .switch, ts => follow (f.give "true") (read ts)
        | none, _, v :: ts => follow (f.give v) (read ts)
        | none, _, [] => .error (.missingValue name)
where
  /-- A flag and what follows it; of two errors the first counts. -/
  follow (first : Except FlagError Given) (rest : Except FlagError CommandLine) :
      Except FlagError CommandLine :=
    match first, rest with
    | .error e, _ => .error e
    | .ok _, .error e => .error e
    | .ok g, .ok c => .ok (c.cons g)

/-! ## Usage -/

/-- The word for a kind of value in the usage text. -/
def Kind.word? : Kind → Option Text
  | .switch => none
  | .text => some "string"
  | .int => some "int"
  | .word => some "uint"
  | .duration => some "duration"

/-- A default in the usage text; a value that means nothing is not shown. -/
def Kind.defaultText : (k : Kind) → k.Value → Text
  | .switch, b => if b then " (default true)" else ∅
  | .text, t => if t.isEmpty then ∅ else " (default " ++ t.quote ++ ")"
  | .int, i => if i == 0 then ∅ else " (default " ++ Text.ofInt i.toInt ++ ")"
  | .word, n => if n == 0 then ∅ else " (default " ++ Text.ofNat n.toNat ++ ")"
  | .duration, d => if d == 0 then ∅ else " (default " ++ d.text ++ ")"

/-- The usage of one flag. A one-letter switch has its explanation on the same line. -/
def Flag.usageText (f : Flag) : Text :=
  let word : Text := match f.key.kind.word? with
    | some w => " " ++ w
    | none => ∅
  let head := "  -" ++ f.name ++ word
  head ++ (if head.size ≤ 4 then ("\t" : Text) else "\n    \t") ++ f.usage ++
    f.key.kind.defaultText (({} : Settings).get f.key) ++ "\n"

/-- The flags by name. -/
def sortedFlags : List Flag := flags.mergeSort fun f g => f.name.le g.name

/-- The beginning of the names of environment variables. -/
def variableStem : Text := "MICROBENCH_"

/-- The usage text of the program. -/
def usage (program : Text) (workloads : List Text) : Text :=
  "Usage: " ++ program ++ " [flags]\n\n" ++
    "Times R runs of K iterations of a CPU-bound workload and reports\n" ++
    "the mean, standard deviation and coefficient of variation.\n\n" ++
    "Workloads: all, " ++ Text.join ", " workloads ++ "\n\n" ++
    "Flags:\n" ++ Text.concat (sortedFlags.map Flag.usageText) ++
    "\nEvery long flag can also be set through " ++ variableStem ++
    "<NAME>, e.g. " ++ variableStem ++
    "RUNS=50.\n"

end Settings

end Stopwatch
