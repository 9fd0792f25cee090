import Stopwatch.Journal
import Stopwatch.Text.Capital

/-!
# Entries for the terminal

One line per entry: the time of day, a three-letter level, the message, then the fields by name, a
fault first. Of several members with one name the last one counts, also where a field is named like
a part of the line.
-/

namespace Stopwatch

namespace Journal

/-- A JSON string as its reader sees it: bytes that are part of no character are replaced. -/
def asRead (t : Text) : Text :=
  Text.ofRunes (t.runes.map fun
    | .char c => .char c
    | .stray _ => .char (Char.ofNat 0xfffd))

/-- The members of an entry by name, each with its last value. -/
def lastByName (members : List (Text × Json)) : List (Text × Json) :=
  members.foldl (fun acc (k, v) =>
    let k := asRead k
    acc.filter (fun p => p.1 != k) ++ [(k, v)]) []

/-- A text in a color, unless colors are off or the number is zero. -/
def colored (colors : Bool) (color : Nat) (t : Text) : Text :=
  if colors && color != 0 then "\x1b[" ++ Text.ofNat color ++ "m" ++ t ++ "\x1b[0m" else t

/-- The three letters and the color of a level. -/
private def levelMark (l : Level) : Option (Text × Nat) :=
  if l == .trace then some ("TRC", 34)
  else if l == .debug then some ("DBG", 0)
  else if l == .info then some ("INF", 32)
  else if l == .warn then some ("WRN", 33)
  else if l == .error then some ("ERR", 31)
  else if l == .fatal then some ("FTL", 31)
  else if l == .panic then some ("PNC", 31)
  else none

/-- The first three bytes of a word in capitals. -/
private def abbreviated (t : Text) : Text := if t.isEmpty then "???" else (t.take 3).upper

mutual

/-- A member as its reader sees it, for a template. Numbers keep their text. -/
private def readValue : Json → Value
  | .null => .null
  | .bool b => .bool b
  | .number t => .text t
  | .string t => .text (asRead t)
  | .array items => .list (readValues items)
  | .object entries => .map (readEntries entries)

/-- The values of an array. -/
private def readValues : List Json → List Value
  | [] => []
  | j :: js => readValue j :: readValues js

/-- The entries of an object. -/
private def readEntries : List (Text × Json) → List (Text × Value)
  | [] => []
  | (k, j) :: rest => (asRead k, readValue j) :: readEntries rest

end

/-- The text that stands for a member outside of the field list. -/
private def bare : Json → Text
  | .null => ∅
  | j => ({} : Directive).write 's' (readValue j)

/-- The level part of a line. -/
private def levelText (colors : Bool) : Option Json → Text
  | some (.string t) =>
    let word := asRead t
    match levelMark ((Level.ofWord? word).getD .unset) with
    | some (m, color) => colored colors color m
    | none => abbreviated word
  | some j => abbreviated (bare j)
  | none => "???"

/-- True of the levels whose message is set in bold. -/
private def isBold : Option Json → Bool
  | some (.string t) =>
    ["info", "warn", "error", "fatal", "panic"].any fun (w : String) => t == (w : Text)
  | _ => false

/-- The message part of a line. -/
private def messageText (colors : Bool) (level message : Option Json) : Text :=
  match message with
  | none => ∅
  | some j =>
    let t := bare j
    if t.isEmpty then ∅ else if isBold level then colored colors 1 t else t

/-- The place part of a line. -/
private def placeText (colors : Bool) : Option Json → Text
  | some (.string t) =>
    if t.isEmpty then ∅ else colored colors 1 (asRead t) ++ colored colors 36 " >"
  | _ => ∅

/-- True if a value needs quotation marks: blanks, control characters, quotes, backslashes,
non-ASCII. -/
private def needsQuotes (t : Text) : Bool :=
  t.bytes.any fun b => b < 0x20 || 0x7e < b || b == 0x20 || b == 0x5c || b == 0x22

/-- The value of a field in the list. -/
private def fieldValue : Json → Text
  | .string t => let t := asRead t; if needsQuotes t then t.quote else t
  | j => Json.compact Json.logValue j

/-- The members that are parts of the line and not listed as fields. -/
private def partNames : List Text := ["level", "time", "message", "caller"]

/-- True of the member that holds the fault. -/
private def isFault (p : Text × Json) : Bool := p.1 == "error"

/-- The listed fields by name, the fault first. A field without a name is left out beside a fault.
-/
private def listed (members : List (Text × Json)) : List (Text × Json) :=
  let fields := (members.filter fun p => !partNames.contains p.1).mergeSort fun a b => a.1.le b.1
  if fields.any isFault then
    fields.filter isFault ++ fields.filter fun p => !isFault p && !p.1.isEmpty
  else fields

/-- One field with its name. -/
private def fieldText (colors : Bool) (kv : Text × Json) : Text :=
  let value := fieldValue kv.2
  colored colors 36 (kv.1 ++ "=") ++
    if isFault kv then colored colors 31 (colored colors 1 value) else value

/-- An entry as one line for the terminal. -/
def Entry.consoleLine (colors : Bool) (stamp : Stamp) (e : Entry) : Text :=
  let members := lastByName (e.members stamp)
  let get (name : Text) : Option Json := (members.find? fun p => p.1 == name).map (·.2)
  let time := match stamp.time with
    | some m => colored colors 90 m.timeText
    | none => ∅
  let parts := [time, levelText colors (get "level"), placeText colors (get "caller"),
    messageText colors (get "level") (get "message")] ++ (listed members).map (fieldText colors)
  Text.join " " (parts.filter fun t => !t.isEmpty) ++ "\n"

end Journal

end Stopwatch
