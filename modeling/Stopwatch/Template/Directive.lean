import Stopwatch.Decimal.FloatText
import Stopwatch.Template.Value
import Stopwatch.Text.Quoted

/-!
# Directives

A directive is what stands after a percent sign in a message template: flags, a width, a precision
and a verb. This module writes one value under a directive. A verb that does not apply to a value is
reported in the text itself, with the value's type and the value: `%!d(string=x)`.
-/

namespace Stopwatch

/-- The flags and sizes of a directive. -/
structure Directive where
  /-- `#`: the alternative form. -/
  sharp : Bool := false
  /-- `0`: zeros instead of spaces on the left. -/
  zero : Bool := false
  /-- `+`: a sign always; ASCII only for quoted text. -/
  plus : Bool := false
  /-- `-`: padding on the right. -/
  minus : Bool := false
  /-- A space where a sign could stand. -/
  space : Bool := false
  width : Option Nat := none
  precision : Option Nat := none
  /-- `#` with the verb `v`: the value in source notation. -/
  source : Bool := false
deriving Inhabited

namespace Directive

/-- The padding on one side, `n` columns of it. -/
def padding (d : Directive) (n : Nat) : Text :=
  ⟨List.replicate n (if d.zero && !d.minus then 0x30 else 0x20)⟩

/-- A text set in the directive's width, which counts characters. -/
def pad (d : Directive) (t : Text) : Text :=
  match d.width with
  | none => t
  | some w =>
    let fill := d.padding (w - t.runeCount)
    if d.minus then t ++ fill else fill ++ t

/-- A text set in the directive's width with spaces only. -/
def padSpaces (d : Directive) (t : Text) : Text := { d with zero := false }.pad t

/-! ## Whole numbers -/

/-- The digits of `n` in a base. -/
def digitsIn (base : Nat) (upper : Bool) (n : Nat) : Text :=
  let t : Text := ⟨(Nat.toDigits base n).map Text.byteOf⟩
  if upper then t.asciiUpper else t

/-- The sign of a number under the directive. -/
def signText (d : Directive) (negative : Bool) : Text :=
  if negative then "-" else if d.plus then "+" else if d.space then " " else ∅

/-- A whole number in a base. Zeros fill up to the precision, or to the width under the flag `0`. -/
def integer (d : Directive) (base : Nat) (upper octalMark : Bool) (i : Int) : Text :=
  let n := i.natAbs
  let negative := i < 0
  if d.precision == some 0 && n == 0 then d.padSpaces ∅
  else
    let least := match d.precision, d.width with
      | some p, _ => p
      | none, some w =>
        if d.zero && !d.minus then (if negative || d.plus || d.space then w - 1 else w) else 0
      | none, none => 0
    let digits := digitsIn base upper n
    let digits := ⟨List.replicate (least - digits.size) 0x30⟩ ++ digits
    let mark : Text :=
      if d.sharp then
        if base == 2 then "0b"
        else if base == 8 then (if digits.startsWith "0" then ∅ else "0")
        else if base == 16 then (if upper then "0X" else "0x")
        else ∅
      else ∅
    d.padSpaces (d.signText negative ++ (if octalMark then ("0o" : Text) else ∅) ++ mark ++ digits)

/-- The code point of a number; a number that is none stands for U+FFFD. -/
def codePoint (i : Int) : Nat :=
  if 0 ≤ i ∧ i < 0x110000 ∧ ¬ (0xd800 ≤ i ∧ i < 0xe000) then i.toNat else 0xfffd

/-- A number as a character. -/
def character (d : Directive) (i : Int) : Text := d.pad (Text.ofChars [Char.ofNat (codePoint i)])

/-- A number as a quoted character. -/
def quotedCharacter (d : Directive) (i : Int) : Text :=
  d.pad (Text.quoteChar (if d.plus then .ascii else .printable) (codePoint i))

/-- A number as a code point, `U+0041`. -/
def unicode (d : Directive) (i : Int) : Text :=
  let n := (UInt64.ofInt i).toNat
  let digits := digitsIn 16 true n
  let least := max 4 (d.precision.getD 4)
  let code := "U+" ++ ⟨List.replicate (least - digits.size) 0x30⟩ ++ digits
  let shown : Text :=
    if d.sharp && n < 0x110000 && Text.isPrintable n then
      " '" ++ Text.ofChars [Char.ofNat n] ++ "'"
    else ∅
  d.padSpaces (code ++ shown)

/-! ## Floats -/

/-- The digits of a float under the verbs `e` and `E`. -/
private def scientificForm (mark : Text) (precision : Option Nat) (m : Nat) (e : Int) : Text :=
  match precision with
  | none => FloatText.scientific mark 2 (Digits.shortest m e) 0
  | some p => FloatText.scientific mark 2 (Digits.rounded m e (p + 1)) p

/-- The digits of a float under the verbs `g` and `G`. -/
private def generalForm (mark : Text) (precision : Option Nat) (m : Nat) (e : Int) : Text :=
  let (digits, most) := match precision with
    | none => (Digits.shortest m e, (6 : Int))
    | some p =>
      let p := if p == 0 then 1 else p
      let digits := Digits.rounded m e p
      let count : Int := digits.digits.length
      (digits, if count < p && digits.point ≤ count then count else p)
  let exponent := digits.point - 1
  if m != 0 && (exponent < -4 || most ≤ exponent) then FloatText.scientific mark 2 digits 0
  else FloatText.positional digits 0

/-- The digits of a float under the verbs `x` and `X`: a binary exponent and hexadecimal digits. -/
private def hexForm (upper : Bool) (precision : Option Nat) (m : Nat) (e : Int) : Text :=
  let bits := m.log2
  -- A mantissa of 61 bits with its leading bit set, or zero.
  let wide := if m == 0 then 0 else m <<< (60 - bits)
  let exponent : Int := if m == 0 then 0 else e + bits
  let (wide, exponent) := match precision with
    | some p =>
      if p < 15 then
        let unit := 1 <<< (60 - 4 * p)
        let r := Binary.roundDiv wide unit * unit
        if r == 1 <<< 61 then (r / 2, exponent + 1) else (r, exponent)
      else (wide, exponent)
    | none => (wide, exponent)
  let fraction := wide % (1 <<< 60)
  let digits := (List.range 15).map fun i => (fraction >>> (4 * (14 - i))) % 16
  let digits := match precision with
    | none => (digits.reverse.dropWhile (· == 0)).reverse
    | some p => (digits ++ List.replicate (p - 15) 0).take p
  let body : Text := "0x" ++ Text.ofNat (wide >>> 60) ++
    (if digits.isEmpty then ∅ else "." ++ ⟨digits.map Text.digitByte⟩) ++
    FloatText.exponentText "p" 2 exponent
  if upper then body.asciiUpper else body

/-- The number without its sign, under a verb. -/
private def magnitude (verb : Char) (precision : Option Nat) (m : Nat) (e : Int) : Text :=
  if verb == 'e' then scientificForm "e" precision m e
  else if verb == 'E' then scientificForm "E" precision m e
  else if verb == 'f' then FloatText.fixedFinite (precision.getD 6) m e
  else if verb == 'x' then hexForm false precision m e
  else if verb == 'X' then hexForm true precision m e
  else if verb == 'b' then
    Text.ofNat m ++ "p" ++ (if e < 0 then Text.ofInt e else "+" ++ Text.ofInt e)
  else if verb == 'G' then generalForm "E" precision m e
  else generalForm "e" precision m e

/-- The alternative form: a point always, and for the general verbs all digits up to the precision.
-/
private def withPoint (verb : Char) (precision : Option Nat) (t : Text) : Text :=
  let isTail (b : UInt8) : Bool :=
    b == 0x70 || b == 0x50 || ((b == 0x65 || b == 0x45) && verb != 'x' && verb != 'X')
  let head := t.bytes.takeWhile fun b => !isTail b
  let tail := t.bytes.dropWhile fun b => !isTail b
  let general := verb == 'g' || verb == 'G' || verb == 'x'
  let wanted := if general then precision.getD 6 else 0
  let digits := head.filter (· != 0x2e)
  let counted := (digits.dropWhile (· == 0x30)).length
  let hasPoint := head.contains 0x2e
  let counted := if !hasPoint && head == [0x30] then counted + 1 else counted
  ⟨head ++ (if hasPoint then [] else [0x2e]) ++ List.replicate (wanted - counted) 0x30 ++ tail⟩

/-- A float under a verb. -/
def float (d : Directive) (verb : Char) (precision : Option Nat) (x : Float) : Text :=
  let precision := if d.precision.isSome then d.precision else precision
  match Binary.view x with
  | .nan => d.padSpaces (if d.plus then "+NaN" else if d.space then " NaN" else "NaN")
  | .infinite true => d.padSpaces "-Inf"
  | .infinite false => d.padSpaces (if d.space && !d.plus then " Inf" else "+Inf")
  | .finite negative m e =>
    let body := magnitude verb precision m e
    let body := if d.sharp && verb != 'b' then withPoint verb precision body else body
    let sign := d.signText negative
    match d.width with
    | some w =>
      if d.zero && !d.minus && !sign.isEmpty then
        sign ++ ⟨List.replicate (w - (body.size + 1)) 0x30⟩ ++ body
      else d.pad (sign ++ body)
    | none => sign ++ body

/-! ## Text -/

/-- The first characters of a text, as many as the precision says. -/
def truncate (d : Directive) (t : Text) : Text :=
  match d.precision with
  | none => t
  | some p => Text.ofRunes (t.runes.take p)

/-- A text as it is. -/
def plainText (d : Directive) (t : Text) : Text := d.pad (d.truncate t)

/-- A text in quotation marks. -/
def quotedText (d : Directive) (t : Text) : Text :=
  let t := d.truncate t
  if d.sharp && t.canBackquote then d.pad ("`" ++ t ++ "`")
  else d.pad (Text.quoteAs (if d.plus then .ascii else .printable) t)

/-- The bytes of a text in hexadecimal. -/
def hexText (d : Directive) (upper : Bool) (t : Text) : Text :=
  let bytes := match d.precision with
    | none => t.bytes
    | some p => t.bytes.take p
  let mark : Text := if d.sharp then (if upper then "0X" else "0x") else ∅
  let one (b : UInt8) : Text :=
    if upper then (Text.hex 2 b.toNat).asciiUpper else Text.hex 2 b.toNat
  let body :=
    if bytes.isEmpty then ∅
    else if d.space then Text.join " " (bytes.map fun b => mark ++ one b)
    else mark ++ Text.concat (bytes.map one)
  d.pad body

/-! ## Values -/

/-- The complaint about a verb that does not apply. -/
def misused (verb : Char) (typeName shown : Text) : Text :=
  "%!" ++ Text.ofChars [verb] ++ "(" ++ typeName ++ "=" ++ shown ++ ")"

/-- A truth value under a verb. -/
def writeBool (d : Directive) (verb : Char) (b : Bool) : Text :=
  if verb == 't' || verb == 'v' then d.pad (Text.ofBool b)
  else misused verb "bool" (d.pad (Text.ofBool b))

/-- A whole number under a verb. -/
def writeInt (d : Directive) (verb : Char) (i : Int) : Text :=
  if verb == 'v' || verb == 'd' then d.integer 10 false false i
  else if verb == 'b' then d.integer 2 false false i
  else if verb == 'o' then d.integer 8 false false i
  else if verb == 'O' then d.integer 8 false true i
  else if verb == 'x' then d.integer 16 false false i
  else if verb == 'X' then d.integer 16 true false i
  else if verb == 'c' then d.character i
  else if verb == 'q' then d.quotedCharacter i
  else if verb == 'U' then d.unicode i
  else misused verb "int" (d.integer 10 false false i)

/-- A float under a verb. -/
def writeFloat (d : Directive) (verb : Char) (x : Float) : Text :=
  if verb == 'v' then d.float 'g' none x
  else if verb == 'f' || verb == 'F' then d.float 'f' (some 6) x
  else if verb == 'e' || verb == 'E' then d.float verb (some 6) x
  else if verb == 'g' || verb == 'G' || verb == 'b' || verb == 'x' || verb == 'X' then
    d.float verb none x
  else misused verb "float64" (d.float 'g' none x)

/-- A text under a verb. -/
def writeText (d : Directive) (verb : Char) (t : Text) : Text :=
  if verb == 'v' then (if d.source then d.quotedText t else d.plainText t)
  else if verb == 's' then d.plainText t
  else if verb == 'q' then d.quotedText t
  else if verb == 'x' then d.hexText false t
  else if verb == 'X' then d.hexText true t
  else misused verb "string" (if d.source then d.quotedText t else d.plainText t)

mutual

/-- A value inside a list or a map, under a verb. -/
def writeInner (d : Directive) (verb : Char) : Value → Text
  | .null => if d.source then "interface \x7b\x7d(nil)" else "<nil>"
  | .bool b => d.writeBool verb b
  | .int i => d.writeInt verb i.toInt
  | .float x => d.writeFloat verb x
  | .text t => d.writeText verb t
  | .list items =>
    let parts := d.writeItems verb items
    if d.source then "[]interface \x7b\x7d\x7b" ++ Text.join ", " parts ++ "\x7d"
    else "[" ++ Text.join " " parts ++ "]"
  | .map entries =>
    let parts := d.writeEntries verb entries
    if d.source then "map[string]interface \x7b\x7d\x7b" ++ Text.join ", " parts ++ "\x7d"
    else "map[" ++ Text.join " " parts ++ "]"

/-- The values of a list, one after the other. -/
def writeItems (d : Directive) (verb : Char) : List Value → List Text
  | [] => []
  | v :: vs => d.writeInner verb v :: d.writeItems verb vs

/-- The entries of a map, one after the other. -/
def writeEntries (d : Directive) (verb : Char) : List (Text × Value) → List Text
  | [] => []
  | (key, v) :: rest =>
    (d.writeText verb key ++ ":" ++ d.writeInner verb v) :: d.writeEntries verb rest

end

/-- A value under a verb. The verb `w` is for faults: a list or a map is no fault as a whole, so the
complaint is about the whole and not about each of its members. -/
def write (d : Directive) (verb : Char) (v : Value) : Text :=
  match v with
  | .null =>
    if verb == 'v' || verb == 'T' then d.pad "<nil>" else "%!" ++ Text.ofChars [verb] ++ "(<nil>)"
  | v =>
    if verb == 'T' then d.plainText v.typeName
    else if verb == 'w' && v.isCompound then misused verb v.typeName (d.writeInner 'v' v)
    else d.writeInner verb v

end Directive

end Stopwatch
