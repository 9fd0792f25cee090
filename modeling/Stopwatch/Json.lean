import Stopwatch.Decimal.FloatText
import Stopwatch.Template.Value
import Stopwatch.Text.Rune

/-!
# JSON

Documents, log lines and health answers are JSON. The three differ only in which characters of a
string they escape, which `Escapes` says. Numbers are given by their text.
-/

namespace Stopwatch

/-- A JSON value. -/
inductive Json where
  | null
  | bool (b : Bool)
  | number (text : Text)
  | string (t : Text)
  | array (items : List Json)
  | object (entries : List (Text × Json))
deriving Inhabited

namespace Json

/-- Which characters of a string are escaped, beyond quotes, backslashes and control characters. -/
structure Escapes where
  /-- The characters `<`, `>` and `&`. -/
  angles : Bool
  /-- The separators U+2028 and U+2029. -/
  separators : Bool
  /-- The character U+007F. -/
  delete : Bool
  /-- What stands for a byte that is part of no character. -/
  replacement : Text

/-- A document for other programs: everything that a page could misread is escaped. -/
def document : Escapes := ⟨true, true, false, "�"⟩

/-- A value inside a log line. -/
def logValue : Escapes := ⟨false, true, false, "�"⟩

/-- The text of a log line itself. -/
def logLine : Escapes := ⟨false, false, true, "\\ufffd"⟩

/-- One rune inside a string. A byte that is part of no character is replaced. -/
def escapeRune (e : Escapes) : Rune → Text
  | .stray _ => e.replacement
  | .char c =>
    let n := c.toNat
    if c == '"' || c == '\\' then Text.ofChars ['\\', c]
    else if n == 8 then "\\b"
    else if n == 12 then "\\f"
    else if n == 10 then "\\n"
    else if n == 13 then "\\r"
    else if n == 9 then "\\t"
    else if n < 0x20 || (e.delete && n == 0x7f) ||
        (e.angles && (c == '<' || c == '>' || c == '&')) ||
        (e.separators && (n == 0x2028 || n == 0x2029)) then
      "\\u" ++ Text.hex 4 n
    else Text.ofChars [c]

/-- A string in quotes. -/
def stringText (e : Escapes) (t : Text) : Text :=
  "\"" ++ Text.concat (t.runes.map (escapeRune e)) ++ "\""

/-- The number that a float is written as. -/
def ofFloat (x : Float) : Json := .number (FloatText.document.write x)

/-- The number that an integer is written as. -/
def ofInt (i : Int) : Json := .number (Text.ofInt i)

mutual

/-- A value on one line. -/
def compact (e : Escapes) : Json → Text
  | null => "null"
  | bool b => Text.ofBool b
  | number t => t
  | string t => stringText e t
  | array items => "[" ++ Text.join "," (compactItems e items) ++ "]"
  | object entries => "\x7b" ++ Text.join "," (compactEntries e entries) ++ "\x7d"

/-- The values of an array. -/
def compactItems (e : Escapes) : List Json → List Text
  | [] => []
  | j :: js => compact e j :: compactItems e js

/-- The entries of an object. -/
def compactEntries (e : Escapes) : List (Text × Json) → List Text
  | [] => []
  | (k, j) :: rest => (stringText e k ++ ":" ++ compact e j) :: compactEntries e rest

end

mutual

/-- A value over several lines, two more spaces for each level; `margin` stands before the lines of
this level. -/
def indented (e : Escapes) (margin : Text) : Json → Text
  | array (j :: js) =>
    "[\n" ++ Text.join ",\n" (indentedItems e (margin ++ "  ") (j :: js)) ++ "\n" ++ margin ++ "]"
  | object (kv :: rest) =>
    "\x7b\n" ++ Text.join ",\n" (indentedEntries e (margin ++ "  ") (kv :: rest)) ++
      "\n" ++ margin ++ "\x7d"
  | array [] => "[]"
  | object [] => "\x7b\x7d"
  | null => "null"
  | bool b => Text.ofBool b
  | number t => t
  | string t => stringText e t

/-- The values of an array, one a line. -/
def indentedItems (e : Escapes) (margin : Text) : List Json → List Text
  | [] => []
  | j :: js => (margin ++ indented e margin j) :: indentedItems e margin js

/-- The entries of an object, one a line. -/
def indentedEntries (e : Escapes) (margin : Text) : List (Text × Json) → List Text
  | [] => []
  | (k, j) :: rest =>
    (margin ++ stringText e k ++ ": " ++ indented e margin j) :: indentedEntries e margin rest

end

mutual

/-- A loosely typed value as JSON. -/
def ofValue : Value → Json
  | .null => .null
  | .bool b => .bool b
  | .int i => ofInt i.toInt
  | .float x => ofFloat x
  | .text t => .string t
  | .list items => .array (ofValues items)
  | .map entries => .object (ofEntries entries)

/-- The values of a list. -/
def ofValues : List Value → List Json
  | [] => []
  | v :: vs => ofValue v :: ofValues vs

/-- The entries of a map. -/
def ofEntries : List (Text × Value) → List (Text × Json)
  | [] => []
  | (k, v) :: rest => (k, ofValue v) :: ofEntries rest

end

end Json

end Stopwatch
