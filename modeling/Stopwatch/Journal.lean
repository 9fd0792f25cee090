import Stopwatch.Decimal.Whole
import Stopwatch.Fault
import Stopwatch.Json
import Stopwatch.Template
import Stopwatch.Text.Fold

/-!
# The journal

The program notes what it does as entries with a level, a message and typed fields. An entry below
the journal's level is not written. `Level.parse` reads a level from a setting and takes "info" for
whatever it does not know.
-/

namespace Stopwatch

namespace Journal

/-- The severity of an entry, or the least severity that a journal writes. -/
structure Level where
  number : Int
deriving DecidableEq, Inhabited

namespace Level

def trace : Level := ⟨-1⟩
def debug : Level := ⟨0⟩
def info : Level := ⟨1⟩
def warn : Level := ⟨2⟩
def error : Level := ⟨3⟩
def fatal : Level := ⟨4⟩
def panic : Level := ⟨5⟩
/-- Entries without a level. -/
def unset : Level := ⟨6⟩
/-- Above every entry. -/
def disabled : Level := ⟨7⟩

/-- The levels with a name. -/
def named : List (Level × Text) :=
  [(trace, "trace"), (debug, "debug"), (info, "info"), (warn, "warn"),
    (error, "error"), (fatal, "fatal"), (panic, "panic"), (disabled, "disabled"), (unset, "")]

/-- The name of a level; a level without one is named by its number. -/
def name (l : Level) : Text :=
  match named.find? fun p => p.1 == l with
  | some (_, n) => n
  | none => Text.ofInt l.number

/-- The level that a word names in any letter case, or a small number gives. -/
def ofWord? (word : Text) : Option Level :=
  match named.find? fun p => word.sameWord p.2 with
  | some (l, _) => some l
  | none =>
    match Whole.readInt64 word with
    | .ok i => if -128 ≤ i ∧ i ≤ 127 then some ⟨i.toInt⟩ else none
    | .error _ => none

/-- The level of a setting; what is not known counts as "info". -/
def parse (setting : Text) : Level :=
  match ofWord? setting.trim.lower with
  | some l => if l == unset then info else l
  | none => info

/-- True if a journal of level `journal` writes entries of level `entry`. -/
def writes (journal entry : Level) : Bool :=
  journal.number ≤ entry.number && debug.number ≤ entry.number

end Level

/-- The value of a field. -/
inductive Datum where
  | text (t : Text)
  | int (i : Int)
  | float (x : Float)
  | bool (b : Bool)
  | duration (d : Duration)
  | fault (f : Fault)
  | value (v : Value)
deriving Inhabited

/-- The fault that a value is. -/
def Datum.fault? : Datum → Option Fault
  | fault f => some f
  | _ => none

/-- A named value of an entry. -/
structure Field where
  key : Text
  datum : Datum
deriving Inhabited

/-- The field that holds a fault, or its absence. -/
def faultField : Option Fault → Field
  | some f => ⟨"error", .fault f⟩
  | none => ⟨"error", .value .null⟩

/-- One entry. -/
structure Entry where
  level : Level
  message : Text
  /-- The fault the entry is about. -/
  fault : Option Fault := none
  fields : List Field := []
deriving Inhabited

/-- An entry at level "debug". -/
def Entry.debug (message : Text) (fields : List Field := []) : Entry :=
  ⟨.debug, message, none, fields⟩

/-- An entry at level "info". -/
def Entry.info (message : Text) (fields : List Field := []) : Entry :=
  ⟨.info, message, none, fields⟩

/-- An entry at level "error". -/
def Entry.error (message : Text) (fault : Option Fault) (fields : List Field := []) : Entry :=
  ⟨.error, message, fault, fields⟩

/-- True if every fault of the entry has a message. An entry of which this is not true has no line
of JSON. -/
def Entry.isReadable (e : Entry) : Bool :=
  (e.fault.toList ++ e.fields.filterMap fun f => f.datum.fault?).all fun f => f.message?.isSome

/-- A float in a log line; what is not finite is a string. -/
def floatJson (x : Float) : Json :=
  match FloatText.notFinite (Binary.view x) with
  | some t => .string t
  | none => Json.ofFloat x

/-- The value of a field as JSON. Durations are milliseconds. -/
def Datum.json : Datum → Json
  | text t => .string t
  | int i => Json.ofInt i
  | float x => floatJson x
  | bool b => .bool b
  | duration d => floatJson (d.toFloat / 1000000.0)
  | fault f => .string f.message
  | value (.text t) => .string t
  | value (.float x) => floatJson x
  | value v => Json.ofValue v

/-- The value of a field in plain text. -/
def Datum.plain : Datum → Text
  | text t => t
  | int i => Text.ofInt i
  | float x => FloatText.general.write x
  | bool b => Text.ofBool b
  | duration d => d.text
  | fault f => f.message
  | value v => Template.plain v

/-- What every entry of a journal carries besides its own fields. -/
structure Stamp where
  component : Option Text := none
  time : Option Moment := none

/-- The names and values of an entry in the order they are written. -/
def Entry.members (stamp : Stamp) (e : Entry) : List (Text × Json) :=
  [(("level" : Text), Json.string e.level.name)] ++
    (stamp.component.map fun c => (("component" : Text), Json.string c)).toList ++
    (e.fault.map fun f => (("error" : Text), Json.string f.message)).toList ++
    e.fields.map (fun f => (f.key, f.datum.json)) ++
    (stamp.time.map fun t => (("time" : Text), Json.string t.stamp)).toList ++
    if e.message.isEmpty then [] else [(("message" : Text), Json.string e.message)]

/-- A member's value on a log line: strings of the line itself escape differently from nested ones.
-/
def memberText : Json → Text
  | .string t => Json.stringText Json.logLine t
  | j => Json.compact Json.logValue j

/-- An entry as one line of JSON. -/
def Entry.jsonLine (stamp : Stamp) (e : Entry) : Text :=
  let one (kv : Text × Json) : Text := Json.stringText Json.logLine kv.1 ++ ":" ++ memberText kv.2
  "\x7b" ++ Text.join "," ((e.members stamp).map one) ++ "\x7d\n"

/-- A line that ends in exactly the line break it already has, or one more. -/
def ended (t : Text) : Text := if t.bytes.getLast? == some 0x0a then t else t ++ "\n"

/-- The level marks of plain lines. -/
private def mark (l : Level) : Text :=
  if l == .debug then "[DEBUG] " else if l == .error then "[ERROR] " else "[INFO] "

/-- An entry as a plain line after a fixed beginning. A fault stands after the message. -/
def Entry.plainLine (beginning : Text) (e : Entry) : Text :=
  let fault : Text :=
    if e.level == .error then ": " ++ (e.fault.map Fault.message).getD "<nil>" else ∅
  let fields : List Text := e.fields.map fun f => " " ++ f.key ++ "=" ++ f.datum.plain
  ended (beginning ++ mark e.level ++ e.message ++ fault ++ Text.concat fields)

end Journal

end Stopwatch
