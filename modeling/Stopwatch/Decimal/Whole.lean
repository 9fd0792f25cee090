import Stopwatch.Text

/-!
# Whole numbers as text

Reading: a plain decimal number, and a number with an optional base mark (`0x`, `0o`, `0b`, a
leading `0`) and underscores between digits. Both name what is wrong: the text is no number
(`malformed`), or the number does not fit (`outOfRange`).

Writing: groups of three digits with a comma between them.
-/

namespace Stopwatch

namespace Whole

/-- Why a text is not read as a number. -/
inductive ReadError where
  /-- The text does not spell a number. -/
  | malformed
  /-- The number it spells does not fit. -/
  | outOfRange
deriving DecidableEq

/-- True of the bytes `0` to `9`. -/
def isDigit (b : UInt8) : Bool := 0x30 ≤ b ∧ b ≤ 0x39

/-- The value of a digit in bases up to 36. -/
def digitValue? (b : UInt8) : Option Nat :=
  if 0x30 ≤ b ∧ b ≤ 0x39 then some (b.toNat - 0x30)
  else if 0x61 ≤ b ∧ b ≤ 0x7a then some (b.toNat - 0x61 + 10)
  else if 0x41 ≤ b ∧ b ≤ 0x5a then some (b.toNat - 0x41 + 10)
  else none

/-- The number that digits spell in a base, read from the left after `acc`. The first byte that is
no digit of the base ends the reading, and so does the first digit that takes the number past
`most`: what stands further left is reported. Underscores are passed over if `underscores` allows
them. -/
def scan (base most : Nat) (underscores : Bool) : Nat → List UInt8 → Except ReadError Nat
  | acc, [] => .ok acc
  | acc, b :: bs =>
    if underscores && b == 0x5f then scan base most underscores acc bs
    else match digitValue? b with
      | none => .error .malformed
      | some d =>
        if base ≤ d then .error .malformed
        else if most < acc * base + d then .error .outOfRange
        else scan base most underscores (acc * base + d) bs

/-- The number that decimal digits spell; other bytes are not expected. -/
def digitsValue (bs : List UInt8) : Nat := bs.foldl (fun acc b => acc * 10 + (b.toNat - 0x30)) 0

/-- What stood before a position of a number with underscores. -/
private inductive Before where
  | nothing
  | digit
  | underscore
  | other
deriving DecidableEq

/-- Underscores stand only between digits, or between the base mark and a digit. -/
private def underscoresFit : Before → Bool → List UInt8 → Bool
  | before, _, [] => before != .underscore
  | before, hexadecimal, b :: bs =>
    if isDigit b || (hexadecimal && (digitValue? b).any (· < 16)) then
      underscoresFit .digit hexadecimal bs
    else if b == 0x5f then
      if before == .digit then underscoresFit .underscore hexadecimal bs else false
    else if before == .underscore then false
    else underscoresFit .other hexadecimal bs

/-- The base and the digits of an unsigned number with an optional base mark. -/
def baseMark : List UInt8 → Nat × List UInt8
  | 0x30 :: m :: rest =>
    if (m == 0x78 || m == 0x58) && !rest.isEmpty then (16, rest)
    else if (m == 0x62 || m == 0x42) && !rest.isEmpty then (2, rest)
    else if (m == 0x6f || m == 0x4f) && !rest.isEmpty then (8, rest)
    else (8, m :: rest)
  | bs => (10, bs)

/-- The underscore rule for a number with an optional base mark. The mark counts as a digit. -/
def underscoresOk (bs : List UInt8) : Bool :=
  match bs with
  | 0x30 :: m :: rest =>
    if m == 0x78 || m == 0x58 then underscoresFit .digit true rest
    else if m == 0x62 || m == 0x42 || m == 0x6f || m == 0x4f then underscoresFit .digit false rest
    else underscoresFit .nothing false bs
  | _ => underscoresFit .nothing false bs

/-- Reads an unsigned decimal number up to `most`. -/
def readPlain (most : Nat) (bs : List UInt8) : Except ReadError Nat :=
  if bs.isEmpty then .error .malformed else scan 10 most false 0 bs

/-- Reads an unsigned number with an optional base mark, up to `most`. -/
def readMarked (most : Nat) (bs : List UInt8) : Except ReadError Nat :=
  if bs.isEmpty then .error .malformed
  else
    let (base, digits) := baseMark bs
    match scan base most true 0 digits with
    | .error e => .error e
    | .ok n => if digits.contains 0x5f && !underscoresOk bs then .error .malformed else .ok n

/-- Splits a sign off; without one the number is positive. -/
def splitSign : List UInt8 → Bool × List UInt8
  | 0x2d :: bs => (true, bs)
  | 0x2b :: bs => (false, bs)
  | bs => (false, bs)

/-- The greatest number of 64 bits. -/
def most64 : Nat := UInt64.size - 1

/-- Half the number of 64-bit words, `2 ^ 63`: signed numbers go from its negative up to it, without
it. -/
def half64 : Nat := 0x8000000000000000

/-- Reads a signed number whose digits `read` understands, within the 64-bit signed range. -/
def readSigned (read : Nat → List UInt8 → Except ReadError Nat) (t : Text) :
    Except ReadError Int64 :=
  let (negative, digits) := splitSign t.bytes
  match read most64 digits with
  | .error e => .error e
  | .ok n =>
    if negative then
      if n ≤ half64 then .ok (Int64.ofInt (-(n : Int))) else .error .outOfRange
    else if n < half64 then .ok (Int64.ofInt n) else .error .outOfRange

/-- A signed decimal number of 64 bits. -/
def readInt64 (t : Text) : Except ReadError Int64 := readSigned readPlain t

/-- A signed number of 64 bits with an optional base mark. -/
def readMarkedInt64 (t : Text) : Except ReadError Int64 := readSigned readMarked t

/-- An unsigned decimal number of 64 bits. -/
def readUInt64 (t : Text) : Except ReadError UInt64 := (readPlain most64 t.bytes).map UInt64.ofNat

/-- An unsigned number of 64 bits with an optional base mark. -/
def readMarkedUInt64 (t : Text) : Except ReadError UInt64 :=
  (readMarked most64 t.bytes).map UInt64.ofNat

/-! ## Groups of three digits -/

/-- The minus sign. -/
def minus : UInt8 := 0x2d

/-- The byte between groups. -/
def comma : UInt8 := 0x2c

/-- Writes groups of three digits, a comma before each one if more than the sign has been written.
Fewer than three digits are no group. -/
def writeGroups (sign : Nat) (written : List UInt8) : List UInt8 → List UInt8
  | a :: b :: c :: rest =>
    let written := if sign < written.length then written ++ [comma] else written
    writeGroups sign (written ++ [a, b, c]) rest
  | _ => written

/-- A number's digits after its sign with commas between groups of three. What the groups leave over
stands at the front. -/
def groupedAfter (sign digits : List UInt8) : List UInt8 :=
  if digits.length ≤ 3 then sign ++ digits
  else
    let head := digits.length % 3
    writeGroups sign.length (sign ++ digits.take head) (digits.drop head)

/-- A number's text with commas between groups of three; a leading minus sign is set apart. -/
def grouped (t : Text) : Text :=
  match t.bytes with
  | b :: bs => if b == minus then ⟨groupedAfter [minus] bs⟩ else ⟨groupedAfter [] (b :: bs)⟩
  | [] => ∅

/-- A natural number with commas between groups of three digits. -/
def groupedNat (n : Nat) : Text := grouped (Text.ofNat n)

end Whole

end Stopwatch
