import Stopwatch.Benchmark
import Stopwatch.Host

/-!
# The report document

The JSON document that a session leaves behind: the host, the settings, and each benchmark with its
samples in nanoseconds and its summary in seconds. Members that say nothing are left out. JSON has
no numbers beyond the finite ones, so a document with another one in a summary cannot be written,
nor one whose time needs a year of more or fewer than four digits.
-/

namespace Stopwatch

/-- The settings that a report records. -/
structure ReportSettings where
  workload : Text := ∅
  runs : Int := 0
  iterations : UInt64 := 0
  gcMode : Text := ∅
  pinCpu : Int := -1
deriving Inhabited

/-- A report before it is written. -/
structure ReportDocument where
  version : Text
  generated : Moment
  host : Host
  settings : ReportSettings
  results : List Result

namespace ReportDocument

/-- A member that is always there. -/
def member (name : Text) (value : Json) : List (Text × Json) := [(name, value)]

/-- A number that is left out when it is zero. -/
def numberUnlessZero (name : Text) (i : Int) : List (Text × Json) :=
  if i == 0 then [] else [(name, Json.ofInt i)]

/-- A text that is left out when it is empty. -/
def textUnlessEmpty (name t : Text) : List (Text × Json) :=
  if t.isEmpty then [] else [(name, .string t)]

/-- The host. -/
def hostJson (h : Host) : Json :=
  .object (textUnlessEmpty "cpu_model" h.model ++
    member "logical_cpus" (Json.ofInt h.logicalCpus) ++
    numberUnlessZero "physical_cpus" h.physicalCpus ++
    numberUnlessZero "total_memory_bytes" h.memory.toNat ++
    member "goos" (.string h.system) ++ member "goarch" (.string h.architecture) ++
    member "go_version" (.string h.toolchain))

/-- The settings. -/
def settingsJson (s : ReportSettings) : Json :=
  .object (member "workload" (.string s.workload) ++ member "runs" (Json.ofInt s.runs) ++
    numberUnlessZero "iterations" s.iterations.toNat ++ textUnlessEmpty "gc_mode" s.gcMode ++
    member "pin_cpu" (Json.ofInt s.pinCpu))

/-- The numbers of a summary by name. -/
def summaryNumbers (s : Summary) : List (Text × Float) :=
  [("mean", s.mean), ("stddev", s.stddev), ("cv_percent", s.variation),
    ("min", s.min), ("max", s.max), ("median", s.median)]

/-- A summary. -/
def summaryJson (s : Summary) : Json :=
  .object (member "n" (Json.ofInt s.n) ++
    (summaryNumbers s).map (fun (n, x) => (n, Json.ofFloat x)) ++
    member "has_spread" (.bool s.hasSpread))

/-- What a run computed. -/
def outcomeJson (o : Outcome) : Json :=
  .object (member "iterations" (Json.ofInt o.iterations.toNat) ++
    numberUnlessZero "primes" o.primes ++ numberUnlessZero "last" o.last.toInt ++
    numberUnlessZero "t1" o.t1.toNat ++ numberUnlessZero "t2" o.t2.toNat)

/-- A change in memory use. -/
def memoryJson (c : Memory.Change) : Json :=
  .object (member "heap_alloc_bytes" (Json.ofInt c.inUse.toInt) ++
    member "total_alloc_bytes" (Json.ofInt c.allocated.toNat) ++
    member "mallocs" (Json.ofInt c.objects.toNat) ++
    member "gc_cycles" (Json.ofInt c.collections.toNat) ++
    member "gc_pause_ns" (Json.ofInt c.pauses.toNat))

/-- A benchmark. -/
def resultJson (r : Result) : Json :=
  let b := r.report
  .object (member "name" (.string b.name) ++
    textUnlessEmpty "description" ((r.workload.map Workload.description).getD ∅) ++
    member "runs" (Json.ofInt b.runs) ++ member "iterations" (Json.ofInt b.iterations.toNat) ++
    member "samples_ns" (.array (b.samples.map fun d => Json.ofInt d.toInt)) ++
    member "summary_seconds" (summaryJson b.summary) ++ member "outcome" (outcomeJson b.outcome) ++
    member "memory" (memoryJson b.memory) ++ member "elapsed_ns" (Json.ofInt b.elapsed.toInt) ++
    textUnlessEmpty "error" ((r.fault.map Fault.message).getD ∅))

/-- The whole document. -/
def json (d : ReportDocument) : Json :=
  .object (member "version" (.string d.version) ++
    member "generated_at" (.string d.generated.fullStamp) ++ member "host" (hostJson d.host) ++
    member "settings" (settingsJson d.settings) ++
    member "benchmarks" (.array (d.results.map resultJson)))

/-- True if every fault of the results has a message. Without one there is no document. -/
def isReadable (d : ReportDocument) : Bool :=
  d.results.all fun r => r.fault.all fun f => f.message?.isSome

/-- The first number in the document that cannot be written. -/
def unwritable? (d : ReportDocument) : Option Text :=
  (d.results.flatMap fun r => summaryNumbers r.report.summary).findSome? fun p =>
    FloatText.notFinite (Binary.view p.2)

/-- The text of the document. The time stands before the numbers and is refused before them. -/
def text (d : ReportDocument) : Except Fault Text :=
  if !d.generated.hasFourDigitYear then
    .error (.plain
      "json: error calling MarshalJSON for type *time.Time: year outside of range [0,9999]")
  else match d.unwritable? with
    | some number => .error (.plain ("json: unsupported value: " ++ number))
    | none => .ok (d.json.indented Json.document ∅ ++ "\n")

end ReportDocument

end Stopwatch
