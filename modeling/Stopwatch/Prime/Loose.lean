import Stopwatch.Decimal.Reading
import Stopwatch.Prime
import Stopwatch.Prime.Probable

/-!
# Primality of loosely typed values

A value of any kind can be asked for its number and whether it is prime. Whole numbers of 32 bits
and more are tested as they are; everything else goes through the float it stands for, which must be
a whole number in range.
-/

namespace Stopwatch

namespace Prime

/-- A value whose primality may be asked. -/
inductive Loose where
  /-- No value. -/
  | nothing
  | float (x : Float)
  | single (x : Float32)
  | int (i : Int64)
  | int32 (i : Int32)
  | int16 (i : Int16)
  | int8 (i : Int8)
  | word (n : UInt64)
  | word32 (n : UInt32)
  | word16 (n : UInt16)
  | word8 (n : UInt8)
  | bool (b : Bool)
  /-- A whole number of any size, which may be missing. -/
  | big (i : Option Int)
  /-- Digits, a string, bytes, or anything that can show itself as text. -/
  | text (t : Text)
  /-- Anything else. -/
  | other

/-- The float nearest an integer; infinite beyond the greatest float. -/
def floatOfInt (i : Int) : Float :=
  (Binary.ofRatio (i < 0) i.natAbs 1).getD (FloatReading.infinity (i < 0))

/-- The number a value stands for. -/
def Loose.toNumber : Loose → Option Float
  | nothing => none
  | float x => some x
  | single x => some (Binary.ofSingle x)
  | int i => some (Binary.ofInt64 i)
  | int32 i => some (Binary.ofInt64 i.toInt64)
  | int16 i => some (Binary.ofInt64 i.toInt64)
  | int8 i => some (Binary.ofInt64 i.toInt64)
  | word n => some n.toFloat
  | word32 n => some n.toUInt64.toFloat
  | word16 n => some n.toUInt64.toFloat
  | word8 n => some n.toUInt64.toFloat
  | bool b => some (if b then 1.0 else 0.0)
  | big i => i.map floatOfInt
  | text t => FloatReading.read? t.trim
  | other => none

/-- Whether a float is a prime number. From `2 ^ 63` on every float is even. -/
def isPrimeFloat (x : Float) : Bool :=
  match Binary.view x with
  | .finite _ m e =>
    let whole := (m <<< e.toNat) % (1 <<< (-e).toNat) == 0
    if !whole || x ≤ 1.0 || 9223372036854775808.0 ≤ x then false
    else isPrime (Binary.truncInt64 x)
  | _ => false

/-- Whether a value is a prime number. -/
def Loose.isPrime : Loose → Bool
  | int i => Prime.isPrime i
  | int32 i => Prime.isPrime i.toInt64
  | word n => isPrimeWord n
  | word32 n => isPrimeWord n.toUInt64
  | big none => false
  | big (some i) =>
    if i ≤ 0 then false
    else if i < UInt64.size then isPrimeWord (UInt64.ofNat i.toNat)
    else isProbablePrimeNat i.toNat
  | v =>
    match v.toNumber with
    | some x => isPrimeFloat x
    | none => false

end Prime

end Stopwatch
