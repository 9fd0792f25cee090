/-!
# Floats as exact numbers

A finite float is `±mantissa · 2 ^ exponent`. `Binary.view` takes a float apart by its bits, and
`Binary.ofRatio` finds the float nearest a quotient of natural numbers, a tie going to the even
mantissa. Both work in exact natural numbers, and all float texts are built on them.
-/

namespace Stopwatch

/-- A float taken apart. -/
inductive Binary where
  /-- Not a number. -/
  | nan
  /-- Beyond every finite number. -/
  | infinite (negative : Bool)
  /-- The number `±mantissa · 2 ^ exponent`. -/
  | finite (negative : Bool) (mantissa : Nat) (exponent : Int)
deriving DecidableEq, Inhabited

namespace Binary

/-- The least exponent of a finite float. -/
def minExponent : Int := -1074

/-- The leading bit of a full mantissa, `2 ^ 52`: smaller mantissas have the least exponent. -/
def leadingBit : Nat := 0x10000000000000

/-- A power of ten. -/
def tenTo (k : Nat) : Nat := Nat.pow 10 k

/-- Takes a float apart by its bits: one for the sign, then those of the exponent's field and of the
fraction. -/
def ofFields (fieldBits fractionBits bits : Nat) : Binary :=
  let negative := bits >>> (fieldBits + fractionBits) == 1
  let field := (bits >>> fractionBits) % (1 <<< fieldBits)
  let fraction := bits % (1 <<< fractionBits)
  let least : Int := 2 - ((1 <<< (fieldBits - 1) : Nat) : Int) - fractionBits
  if field == (1 <<< fieldBits) - 1 then
    if fraction == 0 then .infinite negative else .nan
  else if field == 0 then .finite negative fraction least
  else .finite negative ((1 <<< fractionBits) + fraction) (least + (field - 1 : Nat))

/-- Takes a float apart. -/
def view (x : Float) : Binary := ofFields 11 52 x.toBits.toNat

/-- Takes a float of 32 bits apart. -/
def viewSingle (x : Float32) : Binary := ofFields 8 23 x.toBits.toNat

/-- The quotient rounded to the nearest natural number, a tie to the even one. -/
def roundDiv (num den : Nat) : Nat :=
  let q := num / den
  let r := num % den
  if 2 * r < den then q
  else if den < 2 * r then q + 1
  else q + q % 2

/-- The float `±m · 2 ^ (e - 1074)` for a mantissa of at most 53 bits, none if it is too large. A
mantissa below the leading bit is given with `e = 0` only. -/
def pack (negative : Bool) (m e : Nat) : Option Float :=
  let sign := if negative then 1 <<< 63 else 0
  if 2046 ≤ e then none
  else if m < leadingBit then some (Float.ofBits (UInt64.ofNat (sign + m)))
  else if m == 2 * leadingBit then
    if e == 2045 then none else some (Float.ofBits (UInt64.ofNat (sign + (e + 2) * leadingBit)))
  else some (Float.ofBits (UInt64.ofNat (sign + (e + 1) * leadingBit + (m - leadingBit))))

/-- The float nearest `±num / den`, a tie to the even mantissa; none beyond the greatest float. -/
def ofRatio (negative : Bool) (num den : Nat) : Option Float :=
  if num == 0 || den == 0 then pack negative 0 0
  else
    -- `shift` is such that `num / den` lies near `2 ^ (52 + shift)`.
    let shift : Int := (num.log2 : Int) - den.log2 - 52
    let shift :=
      if num <<< (-shift).toNat < (den <<< shift.toNat) * leadingBit then shift - 1 else shift
    let shift := max shift minExponent
    let m := roundDiv (num <<< (-shift).toNat) (den <<< shift.toNat)
    pack negative m (shift - minExponent).toNat

/-- The float nearest `±m · 10 ^ e`. Exponents far outside the range of floats are not multiplied
out. -/
def ofDecimal (negative : Bool) (m : Nat) (e : Int) : Option Float :=
  if m == 0 then pack negative 0 0
  else
    let digits : Int := (m.log2 : Int) * 30103 / 100000
    if digits + e > 400 then none
    else if digits + e < -400 then pack negative 0 0
    else ofRatio negative (m * tenTo e.toNat) (tenTo (-e).toNat)

/-- The float nearest `±m · 2 ^ e`. -/
def ofBinary (negative : Bool) (m : Nat) (e : Int) : Option Float :=
  if m == 0 then pack negative 0 0
  else
    let size : Int := m.log2
    if size + e > 1100 then none
    else if size + e < -1200 then pack negative 0 0
    else ofRatio negative (m <<< e.toNat) (1 <<< (-e).toNat)

/-- The float nearest a 64-bit number, a tie to the even mantissa. -/
def ofInt64 (i : Int64) : Float := if i < 0 then -(-i).toUInt64.toFloat else i.toUInt64.toFloat

/-- The float equal to one of 32 bits. -/
def ofSingle (x : Float32) : Float :=
  match viewSingle x with
  | .nan => 0.0 / 0.0
  | .infinite negative => if negative then -1.0 / 0.0 else 1.0 / 0.0
  | .finite negative m e =>
    let size := (m <<< e.toNat).toFloat / (1 <<< (-e).toNat).toFloat
    if negative then -size else size

/-- The whole part of a float as a 64-bit number, toward zero. A number that does not fit, and
anything that is no number, gives the least 64-bit number. -/
def truncInt64 (x : Float) : Int64 :=
  match view x with
  | .finite negative m e =>
    let n : Nat := (m <<< e.toNat) >>> (-e).toNat
    let i : Int := if negative then -(n : Int) else n
    if Int64.minValue.toInt ≤ i ∧ i ≤ Int64.maxValue.toInt then Int64.ofInt i else Int64.minValue
  | _ => Int64.minValue

end Binary

end Stopwatch
