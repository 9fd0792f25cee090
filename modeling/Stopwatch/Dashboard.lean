import Stopwatch.Dashboard.Bars
import Stopwatch.Dashboard.Chart
import Stopwatch.Dashboard.Figures
import Stopwatch.Dashboard.RunLog
import Stopwatch.Dashboard.Window

/-!
# The dashboard

An interactive view of a session: its state is a value, each message changes it (`Dashboard.update`)
and may ask for effects, which are left to whoever runs the dashboard (`Stopwatch.Dashboard.Live`).

The user can restart the session. Sessions are numbered by generation, and the messages that end a
session say which generation they belong to, so that the end of an earlier session does not end the
current one.
-/

namespace Stopwatch

namespace Dashboard

/-- What a dashboard is for. -/
structure Setup where
  workloads : List Workload := []
  settings : Settings := {}
  presentation : Presentation := {}
  /-- The version of the program. -/
  version : Text := ∅
deriving Inhabited

/-- Something that happened. -/
inductive Message where
  /-- A key was pressed. -/
  | key (name : Text)
  /-- The window has a new size. -/
  | resize (w : Window)
  /-- A run was completed. -/
  | progress (p : RunProgress)
  /-- No more runs will be announced. -/
  | progressDone
  /-- The results side by side. -/
  | comparison (p : Presentation) (results : List Result)
  /-- A benchmark was completed. -/
  | result (p : Presentation) (r : Result)
  /-- Something went wrong. -/
  | failure (spent : Duration) (f : Option Fault)
  /-- A period has gone by. -/
  | tick
  /-- The memory use of the program. -/
  | memory (m : MemoryFigures)
  /-- The load of the host in percent. -/
  | load (cpu memory : Float)
  /-- All benchmarks of a generation have ended. -/
  | complete (generation : UInt64) (exit : ExitCode) (results : List Result)
  /-- The session of a generation was ended from outside. -/
  | cutShort (generation : UInt64) (cause : Option Fault)
  /-- Something the dashboard does not know. -/
  | unknown
deriving Inhabited

/-- Something a dashboard asks for. -/
inductive Effect where
  /-- A tick after a period. -/
  | tick
  /-- The memory use of the program. -/
  | sampleMemory
  /-- The load of the host. -/
  | sampleLoad
  /-- Run the session as a generation. -/
  | start (generation : UInt64)
  /-- Tell when the session of a generation is ended from outside. -/
  | watch (generation : UInt64)
  /-- End the session of a generation. -/
  | stop (generation : UInt64)
  /-- End the program. -/
  | quit
deriving DecidableEq, Inhabited

/-- The time from a request for a tick to the tick. -/
def period : Duration := Duration.ofInt 500000000

end Dashboard

/-- The state of a dashboard. -/
structure Dashboard where
  setup : Dashboard.Setup
  title : TitleBar
  log : RunLog := {}
  figures : Figures := {}
  chart : Chart := {}
  /-- The window, once its size is known. -/
  window : Option Window := none
  /-- The number of the current session. -/
  generation : UInt64 := 0
  /-- True once the session has ended. -/
  done : Bool := false
  /-- True while the log and the samples of the load are held. -/
  paused : Bool := false
  /-- True once something went wrong. -/
  failed : Bool := false
  exit : ExitCode := ExitCode.success
  /-- The results of the session, once it is complete. -/
  results : List Result := []
deriving Inhabited

namespace Dashboard

/-- The unit in which times are shown. -/
def unit (b : Dashboard) : TimeUnit := b.setup.presentation.unit

/-- A dashboard before anything happened. -/
def fresh (setup : Setup) (now : Moment) : Dashboard :=
  { setup
    title := { begun := now }
    log := ({} : RunLog).addAll now
      (RunLog.sessionLines (setup.workloads.map Workload.name) setup.settings) }

/-- What a generation begins with. -/
def opening (generation : UInt64) : List Effect := [.tick, .start generation, .watch generation]

/-! ## Keys -/

/-- The dashboard as the next generation begins. -/
def restart (b : Dashboard) (now : Moment) : Dashboard :=
  { setup := b.setup
    title := { begun := now }
    log := b.log.clear
    chart := b.chart.clear
    window := b.window
    generation := b.generation + 1 }

/-- What an action does. -/
def act (b : Dashboard) (now : Moment) : Action → Dashboard × List Effect
  | .quit =>
    ({ b with exit := if b.done then b.exit else ExitCode.canceled }, [.stop b.generation, .quit])
  | .pause => ({ b with paused := !b.paused }, [])
  | .restart =>
    let next := b.restart now
    (next, .stop b.generation :: opening next.generation)
  | a => ({ b with log := b.log.scroll (b.log.distance a) }, [])

/-! ## Messages -/

/-- Fits the panels to a window. -/
def resize (b : Dashboard) (w : Window) : Dashboard :=
  { b with
    window := some w
    log := { b.log with height := w.bodyHeight.toInt }
    chart := b.chart.fit w.rightWidth }

/-- True unless the window is too wide for the histories of the load. -/
def canResize (w : Window) : Bool := Ring.isPossible (Chart.columns w.rightWidth)

/-- Takes a run into account; the first run of a benchmark begins a new plot. -/
def progress (b : Dashboard) (now : Moment) (p : RunProgress) : Dashboard :=
  let chart := if p.run == 1 then b.chart.begin else b.chart
  { b with
    figures := b.figures.add b.unit p
    title := { b.title with workload := p.workload, run := p.run, runs := p.runs }
    log := if b.paused then b.log else b.log.add now (RunLog.runLine b.unit p)
    chart := chart.add b.unit p }

/-- What a tick asks for: the next tick as long as the session goes on, and samples unless it is
paused. -/
def onTick (b : Dashboard) : List Effect :=
  if b.done then [] else if b.paused then [.tick] else [.sampleMemory, .sampleLoad, .tick]

/-- The current session is complete. -/
def complete (b : Dashboard) (now : Moment) (exit : ExitCode) (results : List Result) : Dashboard :=
  let title := { b.title with ended := some now }
  { b with done := true, exit, results, title, chart := b.chart.finish (title.elapsed now) }

/-- The current session was ended from outside. -/
def cutShort (b : Dashboard) (now : Moment) (cause : Option Fault) : Dashboard :=
  { b with
    done := true
    exit := if b.done then b.exit else Fault.exitCodeOf cause
    title := { b.title with ended := some now } }

/-- What a message does. -/
def update (b : Dashboard) (now : Moment) : Message → Dashboard × List Effect
  | .key name =>
    match Action.ofKey? name with
    | some a => b.act now a
    | none => (b, [])
  | .resize w => (b.resize w, [])
  | .progress p => (b.progress now p, [])
  | .progressDone => (b, [])
  | .comparison p results =>
    ({ b with log := b.log.addAll now (RunLog.comparisonLines p results) }, [])
  | .result p r => ({ b with log := b.log.addAll now (RunLog.resultLines p r) }, [])
  | .failure spent f =>
    ({ b with log := b.log.add now (RunLog.failureLine spent f), failed := true }, [])
  | .tick => (b, b.onTick)
  | .memory m => ({ b with figures := { b.figures with memory := m } }, [])
  | .load cpu memory => ({ b with chart := b.chart.addLoad cpu memory }, [])
  | .complete generation exit results =>
    if generation == b.generation then (b.complete now exit results, []) else (b, [])
  | .cutShort generation cause =>
    if generation == b.generation then (b.cutShort now cause, [.quit]) else (b, [])
  | .unknown => (b, [])

/-! ## View -/

/-- The state of the session as the user sees it: a failure counts most, then the end, then a pause.
-/
def status (b : Dashboard) : Status :=
  if b.failed then .failed else if b.done then .done else if b.paused then .paused else .running

/-- A size of the window, or zero as long as there is none. -/
def size (b : Dashboard) (measure : Window → Int64) : Int64 := (b.window.map measure).getD 0

/-- The line on top; none if it cannot be drawn. -/
def titleView? (b : Dashboard) (now : Moment) : Option Text :=
  b.title.view? b.setup.version now (b.size Window.width)

/-- The line at the bottom. -/
def statusView (b : Dashboard) : Text := b.status.line (b.size Window.width).toInt

/-- The figures; none if they cannot be drawn. -/
def figuresView? (b : Dashboard) : Option Text :=
  b.figures.view? b.unit (b.size Window.rightWidth) (b.size Window.figuresHeight)

/-- The chart; none if something in it cannot be drawn. -/
def chartView? (b : Dashboard) : Option Text :=
  b.chart.view? b.unit (b.size Window.rightWidth) (b.size Window.chartHeight)

/-- The log with a number of rows; none if it cannot be drawn. -/
def logView? (b : Dashboard) (height : Int64) : Option Text :=
  b.log.view? (b.size Window.logWidth) height

/-- The whole dashboard; none if something in it cannot be drawn. -/
def view? (b : Dashboard) (now : Moment) : Option Text :=
  if b.size Window.width == 0 || b.size Window.height == 0 then some "Initializing..."
  else do
    let right := Block.above [← b.figuresView?, ← b.chartView?]
    let body := Block.beside [← b.logView? (Int64.ofNat (Block.height right)), right]
    return Block.above [← b.titleView? now, body, b.statusView]

end Dashboard

end Stopwatch
