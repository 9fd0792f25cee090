import Stopwatch.Text.Cells

/-!
# The width of a line

A line is drawn by a terminal, which reads it byte by byte. Printable characters take cells; control
characters take none, and neither do the sequences that an escape character or a control code
introduces, such as a change of color. `Reading` is what the terminal is in the middle of, and
`Text.cells` counts the cells of a line.
-/

namespace Stopwatch

/-- What a terminal is in the middle of. -/
inductive Reading where
  /-- Plain text. -/
  | text
  /-- The byte after an escape character. -/
  | escape
  /-- The last byte of an escape sequence. -/
  | escapeEnd
  /-- The parameters of a command. -/
  | command
  /-- The last byte of a command. -/
  | commandEnd
  /-- The start of a string for the device. -/
  | device
  /-- The parameters of a string for the device. -/
  | deviceParameters
  /-- The byte before the data of a string for the device. -/
  | deviceEnd
  /-- The data of a string for the device. -/
  | deviceData
  /-- A string for the system, such as a title. -/
  | title
  /-- A string that is not shown. -/
  | hidden
deriving DecidableEq, Inhabited

namespace Reading

/-- True if a string goes on with all bytes but those that end it. -/
def takesAll : Reading → Bool
  | deviceData | title => true
  | _ => false

/-- After a control code, which is a byte from 0x80 on. -/
def afterCode (b : UInt8) : Reading :=
  if b == 0x90 then device
  else if b == 0x9b then command
  else if b == 0x9d then title
  else if b == 0x98 || b == 0x9e || b == 0x9f then hidden
  else text

/-- After a byte that follows an escape character. -/
def afterEscape (b : UInt8) : Reading :=
  if b < 0x20 || b == 0x7f then escape
  else if b < 0x30 then escapeEnd
  else if b == 0x50 then device
  else if b == 0x5b then command
  else if b == 0x5d then title
  else if b == 0x58 || b == 0x5e || b == 0x5f then hidden
  else text

/-- After a byte below 0x80 that is no escape character and cancels nothing. -/
def afterAscii (r : Reading) (b : UInt8) : Reading :=
  match r with
  | text => text
  | escape => afterEscape b
  | escapeEnd => if b < 0x30 || b == 0x7f then escapeEnd else text
  | command =>
    if b < 0x20 || b == 0x7f || (0x30 ≤ b && b < 0x40) then command
    else if b < 0x30 then commandEnd else text
  | commandEnd => if b < 0x30 || b == 0x7f then commandEnd else text
  | device =>
    if 0x08 ≤ b && b < 0x0e then deviceData
    else if b < 0x20 || b == 0x7f then device
    else if b < 0x30 then deviceEnd
    else if b < 0x40 then deviceParameters else deviceData
  | deviceParameters =>
    if b < 0x20 || b == 0x7f || (0x30 ≤ b && b < 0x40) then deviceParameters
    else if b < 0x30 then deviceEnd else deviceData
  | deviceEnd => if b < 0x30 || b == 0x7f then deviceEnd else deviceData
  | deviceData => deviceData
  | title => if b == 0x07 then text else title
  | hidden => hidden

/-- After one more byte. -/
def next (r : Reading) (b : UInt8) : Reading :=
  if b == 0x18 || b == 0x1a || b == 0x9c then text
  else if b == 0x1b then if r = device then deviceData else escape
  else if b < 0x80 then r.afterAscii b
  else if r.takesAll then r
  else afterCode b

/-- True of the bytes at which a cluster of characters begins. -/
def isClusterStart (r : Reading) (b : UInt8) : Bool := !r.takesAll && 0xc2 ≤ b && b ≤ 0xf4

/-- The cells that a byte takes by itself. -/
def cells (r : Reading) (b : UInt8) : Nat := if r = text ∧ 0x20 ≤ b ∧ b < 0x7f then 1 else 0

/-- The cells of a list of bytes whose first `n` bytes belong to the cluster before. -/
def measure : Nat → Reading → List UInt8 → Nat
  | _, _, [] => 0
  | n + 1, r, _ :: rest => measure n r rest
  | 0, r, b :: rest =>
    if r.isClusterStart b then
      let (cells, size) := Cluster.first b rest
      cells + measure (size - 1) text rest
    else r.cells b + measure 0 (r.next b) rest

end Reading

/-- The number of cells of a text on one line. -/
def Text.cells (t : Text) : Nat := Reading.measure 0 .text t.bytes

end Stopwatch
