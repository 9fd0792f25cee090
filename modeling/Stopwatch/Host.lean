import Stopwatch.Fault

/-!
# The host

The machine that a session runs on, how busy it is, and the processors that the program may use.
-/

namespace Stopwatch

/-- The machine that a session runs on. -/
structure Host where
  /-- The processor's model; empty if it is not known. -/
  model : Text := ∅
  logicalCpus : Int := 0
  /-- The number of processor cores; zero if it is not known. -/
  physicalCpus : Int := 0
  /-- Bytes of memory; zero if it is not known. -/
  memory : UInt64 := 0
  system : Text := "linux"
  architecture : Text := "amd64"
  /-- The version of the tool chain that built the program. -/
  toolchain : Text := "go1.25"
deriving Inhabited

/-- How busy the host is. -/
structure Load where
  /-- Percent of the processors' time in use. -/
  cpu : Float := 0.0
  /-- Percent of the memory in use. -/
  memory : Float := 0.0
deriving Inhabited

/-- True if other programs are likely to disturb the timings. -/
def Load.busy (l : Load) : Bool := 50.0 ≤ l.cpu

/-- Stays on one of the allowed processors; a negative number asks for none. -/
def pin (allowed : List Int) (cpu : Int) : Except Fault Unit :=
  if cpu < 0 || allowed.contains cpu then .ok ()
  else .error (.plain ("cpu " ++ Text.ofInt cpu ++ " is not in the allowed affinity set (" ++
    Text.ofNat allowed.length ++ " cpus)"))

/-- How many samples of the load are taken in a time, one at the end of each interval. The sample
that would fall on the end itself is not taken. -/
def samplesTaken (interval duration : Duration) : Int :=
  if duration.toInt ≤ 0 then 0 else (duration.toInt - 1) / interval.toInt

end Stopwatch
