import Stopwatch.Program

/-!
# The command line

Reads the arguments and the environment, times the runs of the selected workloads on the machine's
clock, and lets `Invocation.run` decide what is printed, which files are written and how the program
ends. All that is done here is reading clocks and variables, and writing what was decided.
-/

namespace Stopwatch

namespace CommandLine

/-- The variables that the program looks at. -/
def variableNames : List Text :=
  "NO_COLOR" :: Settings.Variable.all.map fun v => Settings.variableStem ++ v.name

/-- A text as a string; what is not well-formed is left out. -/
def string (t : Text) : String := t.toString?.getD ""

/-- The variables that are set. -/
def readEnvironment : IO Environment := do
  let entries ← variableNames.filterMapM fun name => do
    return (← IO.getEnv (string name)).map fun value => (name, Text.ofString value)
  return ⟨entries⟩

/-- Nanoseconds from the beginning of 1970 to the origin of moments. -/
def originOfTime : Int := 946684800000000000

/-- The time of day, read off a new file. -/
def readClock : IO Moment := do
  let (_, path) ← IO.FS.createTempFile
  let time := (← path.metadata).modified
  IO.FS.removeFile path
  return ⟨time.sec * 1000000000 + time.nsec.toNat - originOfTime⟩

/-- Makes one call and reads the clock before and after it. -/
def timeCall (w : Workload) (k : UInt64) : IO Reply := do
  let begun ← IO.monoNanosNow
  let reply ← IO.lazyPure fun _ => (w.plan k).reply 0
  let ended ← IO.monoNanosNow
  return { reply with takes := Duration.ofInt (ended - begun) }

/-- Times calls, at most a number of them, until a time is used up; also gives the time that is
left. -/
def timeCalls (w : Workload) (k : UInt64) : Nat → Int → IO (List Reply × Int)
  | 0, left => return ([], left)
  | n + 1, left => do
    if left ≤ 0 then return ([], left)
    let reply ← timeCall w k
    let (more, left) ← timeCalls w k n (left - reply.takes.toInt)
    return (reply :: more, left)

/-- The workload with the replies that were measured. -/
def measured (w : Workload) (replies : List Reply) : Workload :=
  let table := replies.toArray
  { w with plan := fun _ => .each fun i => table.getD i {} }

/-- Times the runs of workloads one after the other, as far as the time goes. -/
def measure (s : Settings) : List Workload → Int → IO (List Workload)
  | [], _ => return []
  | w :: ws, left => do
    let schedule : Schedule := ⟨s.runs.toInt, s.iterations⟩
    let runs := if (Benchmark.refusal? schedule w).isSome then 0 else schedule.runs.toNat
    let (replies, left) ← timeCalls w (Benchmark.iterationsOf schedule w) runs left
    return measured w replies :: (← measure s ws left)

/-- The workloads of an invocation, those that are selected with measured replies. -/
def workloadsFor (s : Settings) : IO (List Workload) := do
  let registry := Registry.builtin { start := s.start, printing := s.printPrimes }
  let chosen := (registry.toRun s.workload).toOption.getD []
  let timed ← measure s chosen s.timeout.toInt
  let others := ((registry.toRun Registry.all).toOption.getD []).filter fun w =>
    chosen.all fun c => c.name != w.name
  return timed ++ others

/-- True if a path leads to a directory. -/
def isDirectory (path : Text) : IO Bool := do
  try return ← (← IO.FS.realPath (string path)).isDir
  catch _ => return false

/-- The directories on the way of a path. -/
def directoriesOn (path : Text) : IO (List (List Text)) := do
  let names := path.split 0x2f
  let ways := (List.range names.length).map fun n => names.take (n + 1)
  let found ← ways.filterM fun way => isDirectory (Text.join "/" way ++ "/")
  return found.map (Path.shortNames (path.startsWith "/") [])

/-- Writes the file that an invocation left under a path, if it left one. -/
def save (disk : Disk) (path : Text) : IO Unit := do
  if path.isEmpty then return
  match disk.find path with
  | .ok (.file names) =>
    let content := ((disk.files.find? fun f => f.1 == names).map (·.2)).getD ∅
    IO.FS.createDirAll (string (Path.directory path))
    IO.FS.writeBinFile (string path) (ByteArray.mk content.bytes.toArray)
  | _ => return

/-- Writes a text to a stream. -/
def write (stream : IO.FS.Stream) (t : Text) : IO Unit := do
  stream.write (ByteArray.mk t.bytes.toArray)
  stream.flush

/-- The invocation of the program with some arguments. -/
def invoke (arguments : List Text) : IO UInt32 := do
  let asked : Invocation :=
    { command := "microbench" :: arguments, environment := ← readEnvironment,
      world := { now := ← readClock } }
  let settings :=
    if asked.wantsVersion then none
    else (Settings.load asked.program arguments asked.environment (asked.registry {}).list).toOption
  let (invocation, paths) ← match settings with
    | none => pure (asked, [])
    | some s =>
      let paths := [s.output, s.metricsFile]
      let workloads ← if s.completion.isEmpty then workloadsFor s else pure []
      let directories ← paths.flatMapM directoriesOn
      pure ({ asked with
        workloads := if s.completion.isEmpty then some workloads else none
        disk := { directories } }, paths)
  let finish := invocation.run
  write (← IO.getStdout) finish.out
  write (← IO.getStderr) finish.err
  paths.forM (save finish.disk)
  return UInt32.ofNat finish.exit.toNat

end CommandLine

end Stopwatch

/-- The program. -/
def main (arguments : List String) : IO UInt32 :=
  Stopwatch.CommandLine.invoke (arguments.map Stopwatch.Text.ofString)
