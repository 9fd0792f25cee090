import Stopwatch.Benchmark.World
import Stopwatch.Completion
import Stopwatch.Disk
import Stopwatch.Exposition
import Stopwatch.Journal.Writer
import Stopwatch.Presentation.Document
import Stopwatch.Presentation.Heading
import Stopwatch.Presentation.Table
import Stopwatch.Prime.CrossCheck
import Stopwatch.Server
import Stopwatch.Server.Address
import Stopwatch.Settings.Validation

/-!
# The program

One invocation of the program as a function: from the arguments, the environment and what else is
found around it, to an exit code, two streams of text and the files that it leaves on the disk.
-/

namespace Stopwatch

/-- What an invocation finds. -/
structure Invocation where
  /-- The program's name and its arguments. -/
  command : List Text
  environment : Environment := ⟨[]⟩
  /-- The colors as long as the settings are not known. -/
  theme : Theme := .plain
  host : Host := {}
  /-- The processors that may be used. -/
  allowedCpus : List Int := [0]
  /-- Workloads in place of the built-in ones. -/
  workloads : Option (List Workload) := none
  /-- Whether the journal goes nowhere. -/
  silent : Bool := false
  world : World := {}
  disk : Disk := {}
deriving Inhabited

/-- What an invocation leaves behind. -/
structure Finish where
  exit : ExitCode
  /-- What was written for the user. -/
  out : Text := ∅
  /-- What was written about the program's own doings. -/
  err : Text := ∅
  disk : Disk := {}
  /-- True if the program broke off: there was no room for the samples, or a metric could not be
  labelled. -/
  broken : Bool := false
deriving Inhabited

namespace Invocation

/-- The name of the program. -/
def program (i : Invocation) : Text := i.command.headD "microbench"

/-- The arguments after the program's name. -/
def arguments (i : Invocation) : List Text := i.command.drop 1

/-! ## Version -/

/-- The version of the program. -/
def version : Text := "dev"

/-- True if some argument asks for the version. -/
def wantsVersion (i : Invocation) : Bool :=
  i.arguments.any fun a => a == "--version" || a == "-version" || a == "-V"

/-- The version and how the program was built. -/
def versionText (host : Host) : Text :=
  "microbench " ++ version ++ "\n  commit:  none\n  built:   unknown\n  go:      " ++
    host.toolchain ++ " " ++ host.system ++ "/" ++ host.architecture ++ "\n"

/-! ## Settings -/

/-- The workloads that exist. -/
def registry (i : Invocation) (options : WorkloadOptions) : Registry :=
  match i.workloads with
  | none => Registry.builtin options
  | some ws =>
    ws.foldl (fun r w => ((r.register w.name (some fun _ => w)).toOption).getD r)
      (Registry.empty options)

/-- Settings that could not be had end the program. A request for the usage text is a success; what
is wrong with a flag has been printed already. -/
def refused (i : Invocation) (r : Settings.Refusal) : Finish :=
  match r.fault with
  | .help => { exit := ExitCode.success, err := r.printed, disk := i.disk }
  | f =>
    let notice : Text :=
      if f.any Fault.isConfig then i.theme.paint i.theme.error ("Error: " ++ f.message) ++ "\n"
      else ∅
    { exit := ExitCode.config, err := r.printed ++ notice, disk := i.disk }

/-- The theme for the rest of the invocation. -/
def themeFor (i : Invocation) (s : Settings) : Theme :=
  let initial := Theme.initial s.noColor i.environment.forbidsColor
  if initial.name == Theme.plain.name then initial else Theme.ofName s.theme

/-- The least severity of the journal's entries: a quiet session raises it, a verbose one lowers it.
-/
def levelFor (s : Settings) : Journal.Level :=
  let level := Journal.Level.parse s.logLevel
  if s.quiet && level.number < Journal.Level.warn.number then .warn
  else if s.verbose && Journal.Level.debug.number < level.number then .debug
  else level

/-- How the results are shown. -/
def presentationFor (s : Settings) : Presentation :=
  { unit := (TimeUnit.parse? s.unit).getD {}
    precision := s.precision.toInt
    spread := s.spread
    verbose := s.verbose
    quiet := s.quiet }

/-- How many workers cross-check: on a host with more than two processors one stays free. -/
def workersFor (s : Settings) (host : Host) : Int :=
  if 0 < s.verifyWorkers then s.verifyWorkers.toInt
  else if 2 < host.logicalCpus then host.logicalCpus - 1 else host.logicalCpus

/-- The settings on a host, with what they leave to it filled in. -/
def fill (host : Host) (s : Settings) : Settings :=
  { s with verifyWorkers := Int64.ofInt (workersFor s host) }

/-! ## Journal -/

/-- Entries as they are written. -/
def journalText (i : Invocation) (s : Settings) (es : List (Timed Journal.Entry)) : Text :=
  let journal : Journal.Writer :=
    if i.silent then ⟨.silent, .trace, none⟩
    else ⟨.console (!i.environment.forbidsColor), levelFor s, some "microbench"⟩
  Text.concat (es.filterMap fun e => journal.write? e.time (.entry e.value))

/-- What is noted about the processor before a workload is timed. -/
def pinEntries (i : Invocation) (s : Settings) (w : Workload) : List Journal.Entry :=
  if s.pinCpu == -1 then []
  else match pin i.allowedCpus s.pinCpu.toInt with
    | .error f =>
      [.error "CPU pinning unavailable, running unpinned" (some f) [⟨"cpu", .int s.pinCpu.toInt⟩]]
    | .ok () => [.debug "pinned to CPU" [⟨"cpu", .int s.pinCpu.toInt⟩, ⟨"workload", .text w.name⟩]]

/-- What is noted when the metrics server starts and when it stops. -/
def serverEntries (s : Settings) : List Journal.Entry × List Journal.Entry :=
  if s.metricsAddress.isEmpty then ([], [])
  else match Server.Address.parse s.metricsAddress with
    | .error f =>
      ([.error "metrics server stopped" (some f) [⟨"addr", .text s.metricsAddress⟩]], [])
    | .ok a =>
      let host : Text := if a.host.isEmpty then "[::]" else a.host
      ([Server.listening (host ++ ":" ++ Text.ofNat a.port)], Server.End.stopped.entries)

/-- The surroundings of the session. -/
def surroundings (i : Invocation) (s : Settings) : Surroundings World :=
  { World.surroundings with opening := i.pinEntries s }

/-! ## Steps -/

/-- Prints a completion script. -/
def complete (i : Invocation) (s : Settings) : Finish :=
  match Completion.write s.completion (i.registry {}).list none with
  | .ok script => { exit := ExitCode.success, out := script, disk := i.disk }
  | .error f =>
    { exit := ExitCode.config, err := "Error generating completion: " ++ f.message ++ "\n",
      disk := i.disk }

/-- Cross-checks the primality predicate: what is written, and the exit code if the program ends
here. -/
def crossCheck (i : Invocation) (s : Settings) (world : World) : Text × Text × Option ExitCode :=
  let theme := i.themeFor s
  let announced : Text :=
    "Verifying the primality predicate on [0, " ++ Text.ofInt s.verifyLimit.toInt ++ "] against " ++
      Prime.oracleName ++ " and trial division...\n"
  let shown (t : Text) : Text := if s.quiet then ∅ else t
  match Prime.check world.ended i.host.logicalCpus.toNat s.verifyWorkers.toInt 0
    s.verifyLimit Prime.isPrime with
  | some f =>
    let (told, exit) := Fault.handle theme 0 (some f)
    (shown announced, told, some exit)
  | none =>
    let entry : Journal.Entry :=
      .info "primality predicate verified" [⟨"workers", .int s.verifyWorkers.toInt⟩]
    (shown (announced ++ theme.paint theme.success "Verification passed." ++ "\n"),
      i.journalText s [⟨world.now, entry⟩], none)

/-- The report of a session. -/
def reportFor (i : Invocation) (s : Settings) (now : Moment) (results : List Result) :
    ReportDocument :=
  { version
    generated := now
    host := i.host
    settings := ⟨s.workload, s.runs.toInt, s.iterations, s.gc, s.pinCpu.toInt⟩
    results }

/-- Saves the report. -/
def saveReport (i : Invocation) (s : Settings) (now : Moment)
    (results : List Result) (disk : Disk) :
    Except Fault (List Journal.Entry) × Disk :=
  if s.output.isEmpty || results.isEmpty then (.ok [], disk)
  else match disk.saveDocument s.output (i.reportFor s now results).text with
    | (.error f, disk) => (.error (f.inContext "writing report"), disk)
    | (.ok (), disk) => (.ok [.debug "report written" [⟨"path", .text s.output⟩]], disk)

/-- Saves the metrics. -/
def saveMetrics (s : Settings) (recorder : Recorder) (disk : Disk) :
    Except Fault (List Journal.Entry) × Disk :=
  if s.metricsFile.isEmpty then (.ok [], disk)
  else match disk.replaceFile s.metricsFile (Exposition.text recorder) with
    | .error f => (.error (f.inContext "writing metrics textfile"), disk)
    | .ok disk => (.ok [.debug "metrics textfile written" [⟨"path", .text s.metricsFile⟩]], disk)

/-- Saves the report and then the metrics; the first failure ends the saving. -/
def saveAll (i : Invocation) (s : Settings) (now : Moment)
    (results : List Result) (recorder : Recorder) :
    List Journal.Entry × Option Fault × Disk :=
  match i.saveReport s now results i.disk with
  | (.error f, disk) => ([], some f, disk)
  | (.ok es, disk) =>
    match saveMetrics s recorder disk with
    | (.error f, disk) => (es, some f, disk)
    | (.ok more, disk) => (es ++ more, none, disk)

/-- Times the workloads, shows the results and saves what is to be saved. -/
def runSession (i : Invocation) (s : Settings) (ws : List Workload) (world : World) : Finish :=
  let theme := i.themeFor s
  let schedule : Schedule := ⟨s.runs.toInt, s.iterations⟩
  if !Session.isPossible (i.surroundings s) schedule ws world then
    { exit := ExitCode.failure, disk := i.disk, broken := true }
  else
  let heading : Text := if s.quiet then ∅ else s.heading theme i.host ++ modeText theme ws
  let ended := Session.run (i.surroundings s) schedule ws world
  let printed :=
    Text.concat ((Session.printed ended.notices).map fun p => Text.ofInt p.toInt ++ "\n")
  let verdict := Verdict.ofResults ended.results
  let now := ended.state.now
  let (saved, fault, disk) := i.saveAll s now verdict.ranking (Recorder.ofNotices ended.notices)
  let failed := (fault.map fun f => Journal.Entry.error "failed to write outputs" (some f)).toList
  let (listening, stopped) := serverEntries s
  let late (es : List Journal.Entry) : List (Timed Journal.Entry) := es.map fun e => ⟨now, e⟩
  let entries :=
    listening.map (fun e => ⟨world.now, e⟩) ++ Session.entries ended.notices ++
      late (saved ++ failed ++ stopped)
  { exit :=
      if fault.isSome && verdict.exit == ExitCode.success then ExitCode.failure else verdict.exit
    out := heading ++ printed ++ verdict.text (presentationFor s) theme
    err := i.journalText s entries
    disk
    broken := !ended.notices.all fun n => Recorder.accepts n.value }

/-- The invocation with settings that are in order. -/
def execute (i : Invocation) (s : Settings) : Finish :=
  if !s.completion.isEmpty then i.complete s
  else
    let world := { i.world with deadline := some (i.world.now.after s.timeout) }
    match (i.registry { start := s.start, printing := s.printPrimes }).toRun s.workload with
    | .error f =>
      let (err, exit) := Fault.handle (i.themeFor s) 0 (some f)
      { exit, err, disk := i.disk }
    | .ok ws =>
      if s.verify then
        match i.crossCheck s world with
        | (out, err, some exit) => { exit, out, err, disk := i.disk }
        | (out, err, none) =>
          let finish := i.runSession s ws world
          { finish with out := out ++ finish.out, err := err ++ finish.err }
      else i.runSession s ws world

/-- The whole invocation. -/
def run (i : Invocation) : Finish :=
  if i.wantsVersion then { exit := ExitCode.success, out := versionText i.host, disk := i.disk }
  else match Settings.loadWith (fill i.host) i.program i.arguments i.environment
      (i.registry {}).list with
    | .error r => i.refused r
    | .ok s => i.execute s

end Invocation

end Stopwatch
