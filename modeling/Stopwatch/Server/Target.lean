import Stopwatch.Path

/-!
# Targets of requests

A target is a path and a query. In the path a percent sign and two hexadecimal digits stand for a
byte. A path is in short form if it has no empty names and no names `.` and `..`; the slash at its
end counts.
-/

namespace Stopwatch

namespace Server

/-- What a request is for. -/
structure Target where
  /-- The path, with all bytes written out. -/
  path : Text
  /-- What follows the question mark. -/
  query : Text := ∅
deriving DecidableEq, Inhabited

namespace Target

/-- The value of a hexadecimal digit. -/
def digit? (b : UInt8) : Option UInt8 :=
  if 0x30 ≤ b && b ≤ 0x39 then some (b - 0x30)
  else if 0x61 ≤ b && b ≤ 0x66 then some (b - 0x57)
  else if 0x41 ≤ b && b ≤ 0x46 then some (b - 0x37)
  else none

/-- The bytes that an escaped path stands for. -/
def unescape : List UInt8 → List UInt8
  | 0x25 :: x :: y :: rest =>
    match digit? x, digit? y with
    | some a, some b => (a * 16 + b) :: unescape rest
    | _, _ => 0x25 :: unescape (x :: y :: rest)
  | b :: rest => b :: unescape rest
  | [] => []

/-- The target that is written in a request. -/
def read (t : Text) : Target :=
  ⟨⟨unescape (t.bytes.takeWhile (· != 0x3f))⟩, ⟨(t.bytes.dropWhile (· != 0x3f)).drop 1⟩⟩

/-- True of the bytes that stand for themselves in a path. -/
def isPlain (b : UInt8) : Bool :=
  (0x30 ≤ b && b ≤ 0x39) || (0x41 ≤ b && b ≤ 0x5a) || (0x61 ≤ b && b ≤ 0x7a) ||
    (Text.ofString "-_.~$&+,/:;=@").bytes.contains b

/-- A byte in a path. -/
def escape (b : UInt8) : Text := if isPlain b then ⟨[b]⟩ else "%" ++ (Text.hex 2 b.toNat).asciiUpper

/-- The target as it is written in a request. -/
def text (t : Target) : Text :=
  Text.concat (t.path.bytes.map escape) ++ if t.query.isEmpty then ∅ else "?" ++ t.query

/-- The target with its path in short form. -/
def short (t : Target) : Target :=
  let path := Path.clean (if t.path.bytes.head? == some 0x2f then t.path else "/" ++ t.path)
  { t with path := if t.path.bytes.getLast? == some 0x2f && path != "/" then path ++ "/" else path }

end Target

/-- A byte in the text of a page. -/
def escapeMarkup (b : UInt8) : Text :=
  if b == 0x26 then "&amp;"
  else if b == 0x3c then "&lt;"
  else if b == 0x3e then "&gt;"
  else if b == 0x22 then "&#34;"
  else if b == 0x27 then "&#39;"
  else ⟨[b]⟩

/-- A text with its characters beyond ASCII escaped, as headers are written. -/
def headerText (t : Text) : Text :=
  Text.concat (t.bytes.map fun b => if b < 0x80 then ⟨[b]⟩ else "%" ++ Text.hex 2 b.toNat)

end Server

end Stopwatch
