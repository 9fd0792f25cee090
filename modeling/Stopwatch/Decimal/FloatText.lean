import Stopwatch.Decimal.Digits

/-!
# Floats as text

The texts of a float: with a fixed number of decimals, with an exponent, and in the general form
that chooses between the two. Digits come from `Digits`; this module only sets them out. Each output
of the program that shows floats names its layout as one record value (`general`, `document`).
-/

namespace Stopwatch

namespace FloatText

/-- Digits as text. -/
def digitText (ds : List Nat) : Text := ⟨ds.map fun d => UInt8.ofNat (0x30 + d)⟩

/-- The texts of a float that is not finite. -/
def notFinite : Binary → Option Text
  | .nan => some "NaN"
  | .infinite false => some "+Inf"
  | .infinite true => some "-Inf"
  | .finite .. => none

/-- `n` units of `10 ^ -places` as a decimal number. -/
def unitsText (n places : Nat) : Text :=
  let ds := Digits.ofNat n
  let ds := List.replicate (places + 1 - ds.length) 0 ++ ds
  let (whole, part) := ds.splitAt (ds.length - places)
  digitText whole ++ (if places == 0 then ∅ else "." ++ digitText part)

/-- The most decimals that a float can have; all further ones are zeros. -/
def mostPlaces : Nat := 1074

/-- The number `m · 2 ^ e` of a float with exactly `places` decimals. -/
def fixedFinite (places m : Nat) (e : Int) : Text :=
  let shown := min places mostPlaces
  unitsText (Digits.fixedUnits m e shown) shown ++ digitText (List.replicate (places - shown) 0)

/-- A float with exactly `places` decimals. -/
def fixed (places : Nat) (x : Float) : Text :=
  match Binary.view x with
  | .finite negative m e => (if negative then ("-" : Text) else ∅) ++ fixedFinite places m e
  | other => (notFinite other).getD ∅

/-- Digits as a decimal number with at least `places` decimals. -/
def positional (d : Digits) (places : Nat) : Text :=
  let whole :=
    if 0 < d.point then
      d.digits.take d.point.toNat ++ List.replicate (d.point.toNat - d.digits.length) 0
    else [0]
  let part := List.replicate (-d.point).toNat 0 ++ d.digits.drop d.point.toNat
  let part := if d.digits.isEmpty then [] else part
  let part := part ++ List.replicate (places - part.length) 0
  digitText whole ++ (if part.isEmpty then ∅ else "." ++ digitText part)

/-- An exponent with its sign and at least `width` digits. -/
def exponentText (mark : Text) (width : Nat) (e : Int) : Text :=
  let ds := Digits.ofNat e.natAbs
  mark ++ (if e < 0 then ("-" : Text) else "+") ++
    digitText (List.replicate (width - ds.length) 0 ++ ds)

/-- Digits with one digit before the point, at least `places` after it, and an exponent. -/
def scientific (mark : Text) (width : Nat) (d : Digits) (places : Nat) : Text :=
  let exponent := if d.digits.isEmpty then 0 else d.point - 1
  let first := d.digits.head?.getD 0
  let part := d.digits.drop 1
  let part := part ++ List.replicate (places - part.length) 0
  digitText [first] ++ (if part.isEmpty then ∅ else "." ++ digitText part) ++
    exponentText mark width exponent

/-- Where the general form changes to an exponent, and how the exponent looks. -/
structure Layout where
  /-- Below this decimal exponent the number is written with an exponent. -/
  low : Int
  /-- From this decimal exponent on the number is written with an exponent. -/
  high : Int
  /-- The least number of exponent digits. -/
  width : Nat

/-- The shortest text that reads back, set out by the layout, without texts for non-finite floats.
-/
def Layout.finite (layout : Layout) (negative : Bool) (m : Nat) (e : Int) : Text :=
  let d := Digits.shortest m e
  let exponent := d.point - 1
  (if negative then ("-" : Text) else ∅) ++
    if m != 0 && (exponent < layout.low || layout.high ≤ exponent) then
      scientific "e" layout.width d 0
    else positional d 0

/-- The shortest text of a float that reads back as the same float. -/
def Layout.write (layout : Layout) (x : Float) : Text :=
  match Binary.view x with
  | .finite negative m e => layout.finite negative m e
  | other => (notFinite other).getD ∅

/-- Values in messages and in exported series: an exponent of two digits at least, from a million on
and below a ten-thousandth. -/
def general : Layout := ⟨-4, 6, 2⟩

/-- Numbers in documents and log lines: an exponent from `10 ^ 21` on and below `10 ^ -6`. -/
def document : Layout := ⟨-6, 21, 1⟩

end FloatText

end Stopwatch
