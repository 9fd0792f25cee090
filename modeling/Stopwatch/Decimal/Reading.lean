import Stopwatch.Decimal.Binary
import Stopwatch.Decimal.Whole
import Stopwatch.Text.Fold

/-!
# Reading floats

A number is an optional sign, then decimal digits with an optional point and exponent, or `0x` and
hexadecimal digits with an optional point and a binary exponent that must be there; or it is one of
the words `inf`, `infinity` and `nan` in any letter case, the last without a sign. Underscores may
stand between digits. The result is the nearest float; a number beyond the greatest float is
refused.
-/

namespace Stopwatch

namespace FloatReading

/-- Digits before and after a point, in one base. -/
structure Mantissa where
  /-- The digits as one number, the point left out. -/
  value : Nat := 0
  /-- How many digits stand after the point. -/
  places : Nat := 0
  /-- True once a point was read. -/
  point : Bool := false
  /-- True once a digit was read. -/
  digits : Bool := false

/-- Reads digits, at most one point and underscores; stops at the first other byte. -/
def mantissa (base : Nat) : Mantissa → List UInt8 → Mantissa × List UInt8
  | acc, [] => (acc, [])
  | acc, b :: bs =>
    if b == 0x5f then mantissa base acc bs
    else if b == 0x2e then
      if acc.point then (acc, b :: bs) else mantissa base { acc with point := true } bs
    else match Whole.digitValue? b with
      | some d =>
        if d < base then
          mantissa base { acc with
            value := acc.value * base + d
            places := if acc.point then acc.places + 1 else acc.places
            digits := true } bs
        else (acc, b :: bs)
      | none => (acc, b :: bs)

/-- The digits of an exponent, underscores passed over. Exponents that leave every range are not
distinguished further. -/
def exponentDigits : Nat → List UInt8 → Nat × List UInt8
  | acc, [] => (acc, [])
  | acc, b :: bs =>
    if b == 0x5f then exponentDigits acc bs
    else if Whole.isDigit b then
      exponentDigits (if acc < 10000 then acc * 10 + (b.toNat - 0x30) else acc) bs
    else (acc, b :: bs)

/-- Reads an exponent after its mark: a sign, then at least one digit. -/
def exponent (bs : List UInt8) : Option (Int × List UInt8) :=
  let (negative, rest) := Whole.splitSign bs
  match rest with
  | b :: _ =>
    if Whole.isDigit b then
      let (n, rest) := exponentDigits 0 rest
      some (if negative then -(n : Int) else n, rest)
    else none
  | [] => none

/-- The lower-case form of an ASCII letter. -/
private def lowerByte (b : UInt8) : UInt8 := if 0x41 ≤ b ∧ b ≤ 0x5a then b + 0x20 else b

theorem lowerByte_of_isDigit {b : UInt8} (h : Whole.isDigit b = true) : lowerByte b = b := by
  unfold lowerByte
  rw [if_neg]
  intro hletter
  have hdigit : b ≤ 0x39 := (of_decide_eq_true h).2
  exact absurd (UInt8.le_trans hletter.1 hdigit) (by decide)

/-- The infinite floats. -/
def infinity (negative : Bool) : Float := if negative then -1.0 / 0.0 else 1.0 / 0.0

/-- The words for what is no finite number. -/
def word? (bs : List UInt8) : Option Float :=
  let (negative, rest) := Whole.splitSign bs
  let name : Text := ⟨rest.map lowerByte⟩
  if name == "inf" || name == "infinity" then some (infinity negative)
  else if (⟨bs.map lowerByte⟩ : Text) == "nan" then some (0.0 / 0.0)
  else none

/-- Whether a number is marked as hexadecimal, with something after the mark. -/
def isHexadecimal : List UInt8 → Bool
  | 0x30 :: x :: _ :: _ => x == 0x78 || x == 0x58
  | _ => false

/-- Reads a finite number that takes up the whole text. -/
def number? (bs : List UInt8) : Option Float :=
  let (negative, body) := Whole.splitSign bs
  let hexadecimal := isHexadecimal body
  let base := if hexadecimal then 16 else 10
  let (m, rest) := mantissa base {} (if hexadecimal then body.drop 2 else body)
  if !m.digits || (body.contains 0x5f && !Whole.underscoresOk body) then none
  else
    let mark : UInt8 := if hexadecimal then 0x70 else 0x65
    let exponent? : Option Int := match rest with
      | [] => if hexadecimal then none else some 0
      | b :: bs =>
        if lowerByte b == mark then
          match exponent bs with
          | some (e, []) => some e
          | _ => none
        else none
    exponent?.bind fun e =>
      if hexadecimal then Binary.ofBinary negative m.value (e - 4 * m.places)
      else Binary.ofDecimal negative m.value (e - m.places)

/-- Reads a float that takes up the whole text. -/
def read? (t : Text) : Option Float :=
  match word? t.bytes with
  | some x => some x
  | none => number? t.bytes

end FloatReading

end Stopwatch
