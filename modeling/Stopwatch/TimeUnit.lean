import Stopwatch.Duration
import Stopwatch.Text.Fold

/-!
# Reporting units

The unit in which times are reported: its name in settings, its label in the output, and its length.
-/

namespace Stopwatch

/-- A reporting unit. -/
structure TimeUnit where
  /-- The name in settings. -/
  name : Text := ∅
  /-- The label in the output. -/
  label : Text := ∅
  /-- The length of one unit. -/
  scale : Duration := 0
deriving DecidableEq, Inhabited

namespace TimeUnit

def milliseconds : TimeUnit := ⟨"ms", "ms", Duration.millisecond⟩
def seconds : TimeUnit := ⟨"s", "seconds", Duration.second⟩
def microseconds : TimeUnit := ⟨"us", "µs", Duration.microsecond⟩

/-- The unit of a setting; the empty setting means milliseconds. -/
def parse? (setting : Text) : Option TimeUnit :=
  let word := setting.trim.lower
  if word == "ms" || word == "" then some milliseconds
  else if word == "s" || word == "sec" || word == "seconds" then some seconds
  else if word == "us" || word == "µs" || word == "micro" then some microseconds
  else none

/-- A duration counted in a unit. -/
def count (u : TimeUnit) (d : Duration) : Float := d.toFloat / u.scale.toFloat

/-- The unit itself, or milliseconds in place of one without a length. -/
def orDefault (u : TimeUnit) : TimeUnit := if u.scale.toInt ≤ 0 then milliseconds else u

end TimeUnit

/-- The greatest number of decimals. -/
def maxDecimals : Int := 1000000

/-- A float with a number of decimals; a negative number counts as none. Too great a number is
reported in the text itself, which then has six. -/
def fixedText (x : Float) (precision : Int) : Text :=
  if maxDecimals < precision then "%!(BADPREC)" ++ FloatText.fixed 6 x
  else FloatText.fixed precision.toNat x

/-- The powers of 1024 have a letter each. -/
private def sizeLetters : List Text := ["K", "M", "G", "T", "P", "E"]

/-- The power of 1024 that a number of bytes is shown in, beyond the first. -/
private def sizePower (n : Nat) : Nat :=
  if n < 1024 then 0 else sizePower (n / 1024) + 1
termination_by n
decreasing_by omega

/-- A number of bytes in binary units with one decimal. -/
def bytesText (n : UInt64) : Text :=
  if n < 1024 then Text.ofNat n.toNat ++ " B"
  else
    let power := sizePower (n.toNat / 1024)
    let unit : UInt64 := UInt64.ofNat (1 <<< (10 * (power + 1)))
    FloatText.fixed 1 (n.toFloat / unit.toFloat) ++ " " ++ sizeLetters.getD power ∅ ++ "iB"

end Stopwatch
