import Stopwatch.Host
import Stopwatch.Settings
import Stopwatch.TimeUnit

/-!
# Before a session

What the terminal shows before the first run: the settings, the host, which workloads are to be run,
and a warning if the host is busy.
-/

namespace Stopwatch

/-- The settings and the host. -/
def Settings.heading (s : Settings) (theme : Theme) (host : Host) : Text :=
  let iterations : Text :=
    if 0 < s.iterations then Whole.groupedNat s.iterations.toNat else "workload default"
  let model : Text := if host.model.isEmpty then "unknown CPU" else host.model
  let memory : Text :=
    if 0 < host.memory then "Memory: " ++ theme.paint theme.primary (bytesText host.memory) ++ ".\n"
    else ∅
  let pinning : Text := if s.pinCpu == -1 then "off" else "CPU " ++ Text.ofInt s.pinCpu.toInt
  "--- Execution Configuration ---\n" ++
    "Timing " ++ theme.paint theme.info (Text.ofInt s.runs.toInt) ++ " runs of " ++
    theme.paint theme.info iterations ++ " iterations with a timeout of " ++
    theme.paint theme.warning s.timeout.text ++ ".\n" ++
    "Environment: " ++ theme.paint theme.primary (Text.ofInt host.logicalCpus) ++
    " logical processors (" ++
    model ++ "), " ++ host.system ++ "/" ++ host.architecture ++ ", Go " ++
    theme.paint theme.primary host.toolchain ++ ".\n" ++ memory ++
    "GC mode: " ++ s.gc ++ ", pinning: " ++ pinning ++ ".\n"

/-- Whether one workload is timed or several are compared. -/
def modeText (theme : Theme) (workloads : List Workload) : Text :=
  let mode : Text := match workloads with
    | [] => "nothing to run"
    | [w] => "Single benchmark of the " ++ theme.paint theme.success w.name ++ " workload"
    | ws => "Sequential comparison of " ++ Text.ofNat ws.length ++ " workloads"
  "Execution mode: " ++ mode ++ ".\n\n--- Starting Execution ---\n"

/-- The warning that the host is busy. -/
def Load.warning (l : Load) (theme : Theme) : Text :=
  theme.paint theme.warning ("Warning: host is busy (CPU " ++
    FloatText.fixed 0 l.cpu ++ "%, memory " ++ FloatText.fixed 0 l.memory ++
    "%); timings may be noisy.") ++ "\n"

end Stopwatch
