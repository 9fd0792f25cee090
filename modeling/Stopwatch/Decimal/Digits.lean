import Stopwatch.Decimal.Binary
import Stopwatch.Text

/-!
# Decimal digits of a float

`Digits` is `0.d₁d₂… · 10 ^ point`. There are three ways to choose the digits of a positive number
`m · 2 ^ e`: a fixed number of decimals, a fixed number of digits, and the fewest digits that still
read back as the same float (of those, the nearest). The first two round the exact value, a half
going to the even neighbour.
-/

namespace Stopwatch

/-- The number `0.d₁d₂… · 10 ^ point`; zero has no digits. -/
structure Digits where
  /-- The digits, most significant first, each below ten. -/
  digits : List Nat
  /-- Where the decimal point stands, counted from before the first digit. -/
  point : Int
deriving DecidableEq, Inhabited

namespace Digits

/-- The decimal digits of a natural number, most significant first. -/
def ofNat (n : Nat) : List Nat := (Nat.toDigits 10 n).map fun c => c.toNat - 0x30

/-- The number `n · 10 ^ exponent` without trailing zeros. -/
def ofScaled (n : Nat) (exponent : Int) : Digits :=
  if n == 0 then ⟨[], 0⟩
  else
    let ds := ofNat n
    ⟨(ds.reverse.dropWhile (· == 0)).reverse, ds.length + exponent⟩

/-- Numerator and denominator of `m · 2 ^ e`. -/
def ratio (m : Nat) (e : Int) : Nat × Nat := (m <<< e.toNat, 1 <<< (-e).toNat)

/-- The decimal exponent `k` with `10 ^ (k - 1) ≤ num / den < 10 ^ k`, for a positive quotient. -/
def magnitude (num den : Nat) : Int :=
  let guess : Int := ((num.log2 : Int) - den.log2) * 30103 / 100000
  fix 4 (guess - 1)
where
  /-- Raises the exponent until the quotient is below its power of ten. -/
  fix : Nat → Int → Int
    | 0, k => k
    | n + 1, k =>
      if num * Binary.tenTo (-k).toNat < den * Binary.tenTo k.toNat then k else fix n (k + 1)

/-- The quotient in units of `10 ^ unit`, rounded to the nearest, a half to even. -/
def inUnits (num den : Nat) (unit : Int) : Nat :=
  Binary.roundDiv (num * Binary.tenTo (-unit).toNat) (den * Binary.tenTo unit.toNat)

/-- `m · 2 ^ e` in units of `10 ^ -places`. -/
def fixedUnits (m : Nat) (e : Int) (places : Nat) : Nat :=
  let (num, den) := ratio m e
  inUnits num den (-(places : Int))

/-- The most significant digits that a float can have. -/
def mostDigits : Nat := 767

/-- The number `m · 2 ^ e` of a float to `count` significant digits. -/
def rounded (m : Nat) (e : Int) (count : Nat) : Digits :=
  if m == 0 then ⟨[], 0⟩
  else
    let (num, den) := ratio m e
    let unit := magnitude num den - min count mostDigits
    ofScaled (inUnits num den unit) unit

/-- True if the decimal `n · 10 ^ unit` reads back as the float `m · 2 ^ e`. The reals that do lie
around it; `narrow` tells that the next lower float is only half as far away. The ends belong to it
if the mantissa is even. -/
def readsBack (m : Nat) (e : Int) (n : Nat) (unit : Int) : Bool :=
  let narrow := m == Binary.leadingBit && Binary.minExponent < e
  let lo := if narrow then 4 * m - 1 else 4 * m - 2
  let hi := 4 * m + 2
  -- Compare `n · 10 ^ unit` with `lo · 2 ^ (e - 2)` and `hi · 2 ^ (e - 2)`.
  let s := e - 2
  let decimal := (n * Binary.tenTo unit.toNat) <<< (-s).toNat
  let scale := Binary.tenTo (-unit).toNat <<< s.toNat
  if m % 2 == 0 then lo * scale ≤ decimal && decimal ≤ hi * scale
  else lo * scale < decimal && decimal < hi * scale

/-- The fewest digits that read back, trying `count` digits and then up to `more` further ones. -/
def fewest (m : Nat) (e : Int) (num den : Nat) (k : Int) : Nat → Nat → Digits
  | count, 0 => rounded m e count
  | count, more + 1 =>
    let unit := k - count
    let below := num * Binary.tenTo (-unit).toNat / (den * Binary.tenTo unit.toNat)
    let lowFits := readsBack m e below unit
    let highFits := readsBack m e (below + 1) unit
    if lowFits && highFits then ofScaled (inUnits num den unit) unit
    else if lowFits then ofScaled below unit
    else if highFits then ofScaled (below + 1) unit
    else fewest m e num den k (count + 1) more

/-- The fewest digits that read back as `m · 2 ^ e`, and of those the nearest. -/
def shortest (m : Nat) (e : Int) : Digits :=
  if m == 0 then ⟨[], 0⟩
  else
    let (num, den) := ratio m e
    fewest m e num den (magnitude num den) 1 17

end Digits

end Stopwatch
