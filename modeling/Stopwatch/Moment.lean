import Stopwatch.Duration

/-!
# Moments

A moment is a number of nanoseconds since the beginning of the year 2000, in universal time.
Calendar days are counted in years that begin in March, which puts the leap day at the end of the
year.
-/

namespace Stopwatch

/-- A point in time. -/
structure Moment where
  /-- Nanoseconds since the beginning of the year 2000. -/
  ns : Int
deriving DecidableEq, Inhabited

/-- A calendar day. -/
structure Day where
  year : Int
  month : Nat
  day : Nat
deriving DecidableEq, Inhabited

namespace Moment

/-- The moment the program's clock starts at. -/
def origin : Moment := ⟨0⟩

/-- The moment a duration later. -/
def after (m : Moment) (d : Duration) : Moment := ⟨m.ns + d.toInt⟩

/-- The moment after a pause; a pause that is not positive takes no time. -/
def sleep (m : Moment) (d : Duration) : Moment := if 0 < d.toInt then m.after d else m

/-- The time from `a` to `b`; a time that is out of range is the end of the range that is next to
it. -/
def since (a b : Moment) : Duration := ⟨Int64.ofIntClamp (b.ns - a.ns)⟩

/-! ## Calendar -/

/-- Days from the first of March of the year zero to the first of January 2000. -/
private def daysToOrigin : Int := 730425

/-- The calendar day of a number of days since the origin. -/
def dayOf (days : Int) : Day :=
  let z := days + daysToOrigin
  let era := z.fdiv 146097
  let dayOfEra := (z - era * 146097).toNat
  let yearOfEra := (dayOfEra - dayOfEra / 1460 + dayOfEra / 36524 - dayOfEra / 146096) / 365
  let dayOfYear := dayOfEra - (365 * yearOfEra + yearOfEra / 4 - yearOfEra / 100)
  let shifted := (5 * dayOfYear + 2) / 153
  let month := if shifted < 10 then shifted + 3 else shifted - 9
  let year : Int := yearOfEra + era * 400
  { year := if month ≤ 2 then year + 1 else year
    month := month
    day := dayOfYear - (153 * shifted + 2) / 5 + 1 }

/-- The number of days since the origin of a calendar day. -/
def daysOf (d : Day) : Int :=
  let y := if d.month ≤ 2 then d.year - 1 else d.year
  let era := y.fdiv 400
  let yearOfEra := (y - era * 400).toNat
  let shifted := if d.month > 2 then d.month - 3 else d.month + 9
  let dayOfYear := (153 * shifted + 2) / 5 + d.day - 1
  let dayOfEra := yearOfEra * 365 + yearOfEra / 4 - yearOfEra / 100 + dayOfYear
  era * 146097 + dayOfEra - daysToOrigin

/-- The moment of a calendar day and a time of day in nanoseconds. -/
def ofCivil (d : Day) (timeOfDay : Int) : Moment := ⟨daysOf d * 86400000000000 + timeOfDay⟩

/-- The days since the origin. -/
def days (m : Moment) : Int := m.ns.fdiv 86400000000000

/-- The nanoseconds since midnight. -/
def timeOfDay (m : Moment) : Nat := (m.ns.fmod 86400000000000).toNat

/-- True if the year is one of 0 to 9999. -/
def hasFourDigitYear (m : Moment) : Bool :=
  let year := (dayOf m.days).year
  0 ≤ year && year ≤ 9999

/-! ## Text -/

/-- A number padded with zeros to a width. -/
def padded (width n : Nat) : Text :=
  let t := Text.ofNat n
  ⟨List.replicate (width - t.size) 0x30⟩ ++ t

/-- Hours, minutes and seconds. -/
def timeText (m : Moment) : Text :=
  let s := m.timeOfDay / 1000000000
  padded 2 (s / 3600) ++ ":" ++ padded 2 (s / 60 % 60) ++ ":" ++ padded 2 (s % 60)

/-- Year, month and day. -/
def dateText (m : Moment) : Text :=
  let d := dayOf m.days
  padded 4 d.year.toNat ++ "-" ++ padded 2 d.month ++ "-" ++ padded 2 d.day

/-- The moment to the second. -/
def stamp (m : Moment) : Text := m.dateText ++ "T" ++ m.timeText ++ "Z"

/-- The moment to the nanosecond, without trailing zeros. -/
def fullStamp (m : Moment) : Text :=
  let part := m.timeOfDay % 1000000000
  let digits := (padded 9 part).bytes
  let shown := (digits.reverse.dropWhile (· == 0x30)).reverse
  m.dateText ++ "T" ++ m.timeText ++ (if part == 0 then (∅ : Text) else "." ++ ⟨shown⟩) ++ "Z"

/-! ## Reading -/

/-- The value of `width` decimal digits at an offset. -/
def digitsAt? (bs : List UInt8) (offset width : Nat) : Option Nat :=
  let ds := (bs.drop offset).take width
  if ds.length == width && ds.all Whole.isDigit then some (Whole.digitsValue ds) else none

/-- The nanoseconds of the digits after the point of a second; digits beyond the ninth are dropped.
-/
def nanoseconds (digits : List UInt8) : Nat :=
  Whole.digitsValue ((digits ++ List.replicate (9 - digits.length) 0x30).take 9)

/-- The minutes by which a zone is ahead of universal time. -/
def zoneMinutes? : List UInt8 → Option Int
  | [0x5a] => some 0
  | sign :: rest => do
    let minutes : Int := (← digitsAt? rest 0 2) * 60 + (← digitsAt? rest 3 2)
    if sign == 0x2b then some minutes else if sign == 0x2d then some (-minutes) else none
  | [] => none

/-- Reads a stamp with a zone; a point or a comma divides the second. -/
def read? (t : Text) : Option Moment := do
  let bs := t.bytes
  let day : Day := ⟨← digitsAt? bs 0 4, ← digitsAt? bs 5 2, ← digitsAt? bs 8 2⟩
  let seconds := ((← digitsAt? bs 11 2) * 60 + (← digitsAt? bs 14 2)) * 60 + (← digitsAt? bs 17 2)
  let (part, zone) := match bs.drop 19 with
    | mark :: r =>
      if mark == 0x2e || mark == 0x2c then (r.takeWhile Whole.isDigit, r.dropWhile Whole.isDigit)
      else ([], mark :: r)
    | [] => ([], [])
  let minutes ← zoneMinutes? zone
  return ofCivil day ((seconds - minutes * 60) * 1000000000 + nanoseconds part)

/-! ## Headings -/

/-- The names of the weekdays; the origin was a Saturday. -/
private def weekdays : List Text := ["Sat", "Sun", "Mon", "Tue", "Wed", "Thu", "Fri"]

/-- The names of the months. -/
private def months : List Text :=
  ["Jan", "Feb", "Mar", "Apr", "May", "Jun", "Jul", "Aug", "Sep", "Oct", "Nov", "Dec"]

/-- The date as it stands in the heading of a response. -/
def headingDate (m : Moment) : Text :=
  let d := dayOf m.days
  weekdays.getD (m.days.fmod 7).toNat ∅ ++ ", " ++ padded 2 d.day ++ " " ++
    months.getD (d.month - 1) ∅ ++ " " ++ padded 4 d.year.toNat ++ " " ++ m.timeText ++ " GMT"

end Moment

end Stopwatch
