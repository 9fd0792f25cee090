import Stopwatch.Dashboard.Action
import Stopwatch.Dashboard.Block
import Stopwatch.Moment

/-!
# Title and status

The line on top of the dashboard, with the time since the session began and the current run, and the
line at the bottom, with the state of the session and the keys.
-/

namespace Stopwatch

/-- What the line on top shows. -/
structure TitleBar where
  /-- When the session began. -/
  begun : Moment
  /-- When the session ended. -/
  ended : Option Moment := none
  workload : Text := ∅
  run : Int := 0
  runs : Int := 0
deriving DecidableEq, Inhabited

namespace TitleBar

/-- The time since the session began, up to its end. -/
def elapsed (b : TitleBar) (now : Moment) : Duration := b.begun.since (b.ended.getD now)

/-- The current run; empty before the first. -/
def runText (b : TitleBar) : Text :=
  if b.workload.isEmpty then ∅
  else Block.settle (b.workload ++ " run " ++ Text.ofInt b.run ++ "/" ++ Text.ofInt b.runs)

/-- The line at a width, with the current run on the right; none if it is too wide to be drawn. -/
def view? (b : TitleBar) (version : Text) (now : Moment) (width : Int64) : Option Text :=
  let name : Text := "microbench"
  let title := if version.isEmpty || version == "dev" then name else name ++ " " ++ version
  let left := Block.settle title ++ " | Elapsed: " ++ (b.elapsed now).display
  let right := b.runText
  let gap := max (max (width - 2).toInt 0 - Block.width left - Block.width right) 1
  if !Block.isDrawable gap then none
  else some (Block.banner width.toInt (left ++ Text.spaces gap.toNat ++ right))

end TitleBar

/-- The state of a session as the user sees it. -/
inductive Status where
  | running
  | paused
  | done
  | failed
deriving DecidableEq, Inhabited

namespace Status

/-- The state as it is shown. -/
def text : Status → Text
  | running => "RUNNING"
  | paused => "PAUSED"
  | done => "DONE"
  | failed => "FAILED"

end Status

/-- The help items after the first `used` cells of a line. An item that would exceed the width ends
the help, with an ellipsis if there is room for it; a width of zero has room for all. -/
def helpFrom (width : Int) : Nat → List Action → Text
  | _, [] => ∅
  | used, a :: more =>
    let gap : Text := if 0 < used then " • " else ∅
    let item := gap ++ a.label ++ " " ++ a.description
    if 0 < width ∧ width < used + item.cells then if (used + 2 : Int) < width then " …" else ∅
    else item ++ helpFrom width (used + item.cells) more

/-- The line at the bottom. -/
def Status.line (s : Status) (width : Int) : Text :=
  " " ++ s.text ++ "  " ++ helpFrom width 0 Action.shortHelp

end Stopwatch
