import Stopwatch.Text

/-!
# Actions

What the user can do on the dashboard, which keys do it, and how the help line names it.
-/

namespace Stopwatch

/-- Something the user can do. -/
inductive Action where
  | quit
  | pause
  | restart
  | up
  | down
  | pageUp
  | pageDown
deriving DecidableEq, Inhabited

namespace Action

/-- All actions. -/
def all : List Action := [quit, pause, restart, up, down, pageUp, pageDown]

/-- The keys of an action. -/
def keys : Action → List Text
  | quit => ["q", "ctrl+c"]
  | pause => [" ", "p"]
  | restart => ["r"]
  | up => ["up", "k"]
  | down => ["down", "j"]
  | pageUp => ["pgup"]
  | pageDown => ["pgdown"]

/-- The key as the help line shows it. -/
def label : Action → Text
  | quit => "q"
  | pause => "space"
  | restart => "r"
  | up => "↑/k"
  | down => "↓/j"
  | pageUp => "pgup"
  | pageDown => "pgdn"

/-- The action as the help line shows it. -/
def description : Action → Text
  | quit => "quit"
  | pause => "pause"
  | restart => "restart"
  | up => "scroll up"
  | down => "scroll down"
  | pageUp => "page up"
  | pageDown => "page down"

/-- The action of a key. -/
def ofKey? (key : Text) : Option Action := all.find? fun a => a.keys.contains key

/-- The actions on the help line. -/
def shortHelp : List Action := [quit, pause, restart, up, down]

/-- All actions in columns. -/
def fullHelp : List (List Action) := [[quit, pause, restart], [up, down, pageUp, pageDown]]

end Action

end Stopwatch
