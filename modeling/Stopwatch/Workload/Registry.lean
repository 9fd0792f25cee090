import Stopwatch.Workload

/-!
# The registry of workloads

Workloads are built by name from options. A registration replaces an earlier one of the same name;
the names are listed in increasing order.
-/

namespace Stopwatch

/-- What the built-in workloads are built from. -/
structure WorkloadOptions where
  /-- Where a prime scan starts. -/
  start : Int64 := 1
  /-- Whether a prime scan prints the primes it finds. -/
  printing : Bool := false
deriving Inhabited

/-- Workloads by name. -/
structure Registry where
  options : WorkloadOptions
  /-- Names in increasing order, each with its constructor. -/
  entries : List (Text × (WorkloadOptions → Workload))
deriving Inhabited

namespace Registry

/-- The selection that means every workload. -/
def all : Text := "all"

/-- A registry without workloads. -/
def empty (options : WorkloadOptions) : Registry := ⟨options, []⟩

/-- The entry put in its place by name, instead of an earlier one of the same name. -/
def insert (name : Text) (build : WorkloadOptions → Workload) :
    List (Text × (WorkloadOptions → Workload)) → List (Text × (WorkloadOptions → Workload))
  | [] => [(name, build)]
  | (n, b) :: rest =>
    if n == name then (name, build) :: rest
    else if n.le name then (n, b) :: insert name build rest
    else (name, build) :: (n, b) :: rest

/-- Registers a constructor under a name. A name may be neither empty nor the word for every
workload, and there must be a constructor. -/
def register (r : Registry) (name : Text) (build : Option (WorkloadOptions → Workload)) :
    Except Fault Registry :=
  if name.isEmpty || name == all then .error (.plain ("invalid workload name " ++ name.quote))
  else match build with
    | none => .error (.plain ("nil constructor for workload " ++ name.quote))
    | some b => .ok { r with entries := insert name b r.entries }

/-- The registered names in increasing order. -/
def list (r : Registry) : List Text := r.entries.map (·.1)

/-- Builds the workload of a name. -/
def get (r : Registry) (name : Text) : Except Fault Workload :=
  match r.entries.find? fun e => e.1 == name with
  | some (_, build) => .ok (build r.options)
  | none => .error (.wrapped ∅ .unknownWorkload (": " ++ name.quote))

/-- The workloads of a selection: one by its name, or all of them in the order of their names. -/
def select (r : Registry) (selection : Text) : Except Fault (List Workload) :=
  if selection == all then r.list.mapM r.get else (r.get selection).map fun w => [w]

/-- The workloads of a selection; a selection that cannot be resolved is a fault in the settings. -/
def toRun (r : Registry) (selection : Text) : Except Fault (List Workload) :=
  (r.select selection).mapError fun f => .config f.message

/-- The built-in workloads. -/
def builtin (options : WorkloadOptions) : Registry :=
  { options
    entries :=
      [ ("fibonacci", fun _ => Workload.fibonacci),
        ("prime-count", fun _ => Workload.primeCount),
        ("prime-scan", fun o => Workload.primeScan o.start o.printing),
        ("sieve", fun _ => Workload.sieve) ] }

end Registry

end Stopwatch
