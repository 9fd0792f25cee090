import Stopwatch.Journal.Console

/-!
# Journals

A journal takes what it is handed and writes a line of it, in one of three forms, or nothing at all.
A journal that names its component also notes the time of each entry.

Lines for programs and for the terminal are made of JSON members, so an entry with a fault that has
no message cannot be written there. A plain line shows the fault as a template would.
-/

namespace Stopwatch

namespace Journal

/-- How a journal writes its entries. -/
inductive Form where
  /-- As JSON, one object a line. -/
  | json
  /-- For the terminal. -/
  | console (colors : Bool)
  /-- As plain lines after a fixed beginning. -/
  | plain (beginning : Text)
  /-- Not at all. -/
  | silent
deriving Inhabited

/-- What a journal is handed. -/
inductive Call where
  /-- An entry with its fields. -/
  | entry (e : Entry)
  /-- A message that may bring its own line break. -/
  | message (t : Text)
  /-- A message that is a line. -/
  | line (t : Text)
deriving Inhabited

/-- The entry that a call makes; a message alone is an entry at level "info". -/
def Call.toEntry : Call → Entry
  | entry e => e
  | message t => .info t
  | line t => .info t

/-- A journal. -/
structure Writer where
  form : Form
  /-- The least level that is written. -/
  level : Level := .trace
  /-- The part of the program that the journal belongs to. -/
  component : Option Text := none
deriving Inhabited

namespace Writer

/-- What every entry carries at a moment. -/
def stamp (w : Writer) (now : Moment) : Stamp := ⟨w.component, w.component.map fun _ => now⟩

/-- A line of members, if the level is high enough; none if a fault has no message. -/
def membersLine? (w : Writer) (e : Entry) (line : Text) : Option Text :=
  if !w.level.writes e.level then some ∅ else if e.isReadable then some line else none

/-- What a call writes at a moment; none if it cannot be written. -/
def write? (w : Writer) (now : Moment) (c : Call) : Option Text :=
  let e := c.toEntry
  match w.form, c with
  | .json, _ => w.membersLine? e (e.jsonLine (w.stamp now))
  | .console colors, _ => w.membersLine? e (e.consoleLine colors (w.stamp now))
  | .plain beginning, .entry e => some (e.plainLine beginning)
  | .plain beginning, .message t => some (ended (beginning ++ t))
  | .plain beginning, .line t => some (beginning ++ t ++ Text.newline)
  | .silent, _ => some ∅

end Writer

end Journal

end Stopwatch
