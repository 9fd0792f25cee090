import Stopwatch.Fault
import Stopwatch.Text.Fold

/-!
# Memory collection modes

How the collection of unused memory is handled while a benchmark runs: left alone, forced before
each run, or switched off for the whole benchmark.
-/

namespace Stopwatch

/-- How unused memory is collected during a benchmark. -/
inductive GcMode where
  /-- Collection is left alone. -/
  | automatic
  /-- A collection is forced before each run, outside the time that is measured. -/
  | collect
  /-- Collection is switched off. -/
  | disabled
deriving DecidableEq, Inhabited

namespace GcMode

/-- The name in settings and reports. -/
def name : GcMode → Text
  | automatic => "default"
  | collect => "collect"
  | disabled => "disabled"

/-- The mode of a setting; the empty setting leaves collection alone. -/
def parse (setting : Text) : Except Fault GcMode :=
  let word := setting.trim.lower
  if word.isEmpty || word == automatic.name then .ok automatic
  else if word == collect.name then .ok collect
  else if word == disabled.name then .ok disabled
  else .error (.plain ("unknown gc mode " ++ setting.quote ++
    " (want default, collect or disabled)"))

end GcMode

end Stopwatch
