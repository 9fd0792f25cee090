import Stopwatch.Decimal.FloatText
import Stopwatch.Decimal.Whole

/-!
# Durations

A duration is a signed 64-bit number of nanoseconds. Its text gives hours, minutes and seconds, or a
single smaller unit below one second (`1m0.5s`, `20ms`); a command-line value is the same notation
with any mixture of units (`1h30m`, `1.5s`).
-/

namespace Stopwatch

/-- A signed number of nanoseconds. -/
structure Duration where
  /-- The nanoseconds. -/
  ns : Int64
deriving DecidableEq, Inhabited

namespace Duration

/-- A duration of a given number of nanoseconds, modulo 64 bits. -/
def ofInt (i : Int) : Duration := ⟨Int64.ofInt i⟩

instance (n : Nat) : OfNat Duration n := ⟨ofInt n⟩

/-- The nanoseconds as an integer. -/
def toInt (d : Duration) : Int := d.ns.toInt

/-- Shorter than. -/
def lt (a b : Duration) : Bool := a.ns < b.ns

def microsecond : Duration := ofInt 1000
def millisecond : Duration := ofInt 1000000
def second : Duration := ofInt 1000000000
def minute : Duration := ofInt 60000000000
def hour : Duration := ofInt 3600000000000

/-- The nanoseconds as a float. -/
def toFloat (d : Duration) : Float := Binary.ofInt64 d.ns

/-- The duration in some unit as a float: the whole units and the rest are converted apart and
added. -/
def inUnits (d unit : Duration) : Float :=
  let whole := d.ns / unit.ns
  let rest := d.ns % unit.ns
  Binary.ofInt64 whole + Binary.ofInt64 rest / unit.toFloat

/-- The seconds as a float. -/
def seconds (d : Duration) : Float := d.inUnits second

/-- The minutes as a float. -/
def minutes (d : Duration) : Float := d.inUnits minute

/-- The hours as a float. -/
def hours (d : Duration) : Float := d.inUnits hour

/-- The nearest multiple of `unit`, a half going away from zero. Where that multiple is out of range
the result is the duration's own end of the range. -/
def round (d unit : Duration) : Duration :=
  if unit.toInt ≤ 0 then d
  else
    let u := unit.toInt
    let r := d.toInt.tmod u
    if d.toInt < 0 then
      if -r + -r < u then ofInt (d.toInt - r)
      else
        let low := d.toInt - r - u
        if Int64.minValue.toInt ≤ low then ofInt low else ⟨Int64.minValue⟩
    else if r + r < u then ofInt (d.toInt - r)
    else
      let high := d.toInt - r + u
      if high ≤ Int64.maxValue.toInt then ofInt high else ⟨Int64.maxValue⟩

/-! ## Text -/

/-- `n / 10 ^ places` without trailing zeros. -/
def fraction (n places : Nat) : Text :=
  let scale := Binary.tenTo places
  let whole := n / scale
  let part := Digits.ofNat (n % scale)
  let part := List.replicate (places - part.length) 0 ++ part
  let part := ((part.reverse.dropWhile (· == 0)).reverse)
  Text.ofNat whole ++ if n % scale == 0 then ∅ else "." ++ FloatText.digitText part

/-- The text of a number of nanoseconds. -/
def magnitudeText (n : Nat) : Text :=
  if n == 0 then "0s"
  else if n < 1000 then Text.ofNat n ++ "ns"
  else if n < 1000000 then fraction n 3 ++ "µs"
  else if n < 1000000000 then fraction n 6 ++ "ms"
  else
    let seconds := fraction (n % 60000000000) 9 ++ "s"
    let minutes := n / 60000000000
    if minutes == 0 then seconds
    else
      let rest := Text.ofNat (minutes % 60) ++ "m" ++ seconds
      if minutes / 60 == 0 then rest else Text.ofNat (minutes / 60) ++ "h" ++ rest

/-- The text of a duration. -/
def text (d : Duration) : Text :=
  (if d.toInt < 0 then ("-" : Text) else ∅) ++ magnitudeText d.toInt.natAbs

/-- A duration for display: whole microseconds below a millisecond, whole milliseconds below a
second, and the full text from there on. Negative durations are below a millisecond. -/
def display (d : Duration) : Text :=
  if d.toInt < 1000000 then Text.ofInt (d.toInt.tdiv 1000) ++ "µs"
  else if d.toInt < 1000000000 then Text.ofInt (d.toInt.tdiv 1000000) ++ "ms"
  else d.text

/-! ## Reading -/

/-- The names of the units with their nanoseconds. -/
def units : List (Text × Nat) :=
  [("ns", 1), ("us", 1000), ("µs", 1000), ("μs", 1000), ("ms", 1000000),
    ("s", 1000000000), ("m", 60000000000), ("h", 3600000000000)]

/-- The nanoseconds of a unit by its name. -/
def unitNs? (name : Text) : Option Nat := units.lookup name

/-- The leading digits of a fraction that fit in 63 bits, and the power of ten they are counted in.
-/
def leadingFraction : Nat → Float → List UInt8 → Nat × Float
  | f, scale, [] => (f, scale)
  | f, scale, b :: bs =>
    if (Whole.half64 - 1) / 10 < f then (f, scale)
    else
      let g := f * 10 + (b.toNat - 0x30)
      if Whole.half64 < g then (f, scale) else leadingFraction g (scale * 10.0) bs

/-- A number with a unit, in nanoseconds; none if it does not fit in 63 bits. The digits after the
point are scaled in floating point. -/
def componentNs (whole : Nat) (part : List UInt8) (unit : Nat) : Option Nat :=
  if Whole.half64 / unit < whole then none
  else
    let (f, scale) := leadingFraction 0 1.0 part
    let scaled := (UInt64.ofNat f).toFloat * ((UInt64.ofNat unit).toFloat / scale)
    let n := whole * unit + if f == 0 then 0 else (Binary.truncInt64 scaled).toInt.toNat
    if n ≤ Whole.half64 then some n else none

/-- True of the bytes a unit's name is made of. -/
def isUnitByte (b : UInt8) : Bool := !(b == 0x2e || Whole.isDigit b)

/-- Splits the digits after a point off; without a point there are none. -/
def splitPart : List UInt8 → List UInt8 × List UInt8
  | 0x2e :: bs => (bs.takeWhile Whole.isDigit, bs.dropWhile Whole.isDigit)
  | bs => ([], bs)

/-- Reads one number with its unit, and gives what follows it. -/
def component? (bs : List UInt8) : Option (Nat × List UInt8) :=
  let whole := bs.takeWhile Whole.isDigit
  let (part, rest) := splitPart (bs.dropWhile Whole.isDigit)
  let value := Whole.digitsValue whole
  if (whole.isEmpty && part.isEmpty) || Whole.half64 < value then none
  else do
    let unit ← unitNs? ⟨rest.takeWhile isUnitByte⟩
    let n ← componentNs value part unit
    return (n, rest.dropWhile isUnitByte)

/-- Adds up numbers with units to the end of the text, in 64 bits. -/
def total? (sum : Nat) (bs : List UInt8) : Option Nat :=
  if bs.isEmpty then some sum
  else match component? bs with
    | none => none
    | some (n, rest) =>
      let next := (sum + n) % (2 * Whole.half64)
      if Whole.half64 < next then none
      else if rest.length < bs.length then total? next rest
      else none
termination_by bs.length

/-- Reads a duration: a sign, then numbers with units, or a plain zero. -/
def read? (t : Text) : Option Duration :=
  let (negative, body) := Whole.splitSign t.bytes
  if body == [0x30] then some 0
  else if body.isEmpty then none
  else match total? 0 body with
    | none => none
    | some n =>
      if negative then some (ofInt (-(n : Int)))
      else if n < Whole.half64 then some (ofInt n) else none

end Duration

end Stopwatch
