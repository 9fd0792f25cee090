import Stopwatch.Text

/-!
# Values of a message

The loosely typed values that a message template or a log line may be given.
-/

namespace Stopwatch

/-- A loosely typed value. -/
inductive Value where
  | null
  | bool (b : Bool)
  | int (i : Int64)
  | float (x : Float)
  | text (t : Text)
  | list (items : List Value)
  /-- Entries by key, in increasing order of the keys. -/
  | map (entries : List (Text × Value))
deriving Inhabited

namespace Value

/-- The name of the value's type, as messages about misused directives give it. -/
def typeName : Value → Text
  | null => "<nil>"
  | bool _ => "bool"
  | int _ => "int"
  | float _ => "float64"
  | text _ => "string"
  | list _ => "[]interface \x7b\x7d"
  | map _ => "map[string]interface \x7b\x7d"

/-- True of a value made of other values. -/
def isCompound : Value → Bool
  | list _ => true
  | map _ => true
  | _ => false

end Value

end Stopwatch
