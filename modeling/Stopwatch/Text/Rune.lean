import Stopwatch.Text

/-!
# Characters of a text

`Text.runes` reads a text as UTF-8. A byte that starts no well-formed character stands for itself
(`Rune.stray`), and reading goes on with the next byte, so nothing is lost: `Rune.encode` gives the
bytes that a rune was read from.

`decodeFrom` is structural: its first argument counts the continuation bytes that belong to a
character already read.
-/

namespace Stopwatch

/-- A character of a text, or a byte that is part of none. -/
inductive Rune where
  /-- A well-formed character. -/
  | char (c : Char)
  /-- A byte that starts no well-formed character. -/
  | stray (b : UInt8)
deriving DecidableEq, Inhabited

namespace Rune

/-- The bytes a rune was read from. -/
def encode : Rune → List UInt8
  | char c => String.utf8EncodeChar c
  | stray b => [b]

/-- The code point; a stray byte counts as U+FFFD. -/
def code : Rune → Nat
  | char c => c.toNat
  | stray _ => 0xfffd

end Rune

namespace Text

/-- True of the bytes that continue a character. -/
def isTail (b : UInt8) : Bool := 0x80 ≤ b ∧ b ≤ 0xbf

/-- The least and the greatest second byte of a three-byte character that starts with `a`. -/
def secondOfThree (a : UInt8) : UInt8 × UInt8 :=
  if a == 0xe0 then (0xa0, 0xbf) else if a == 0xed then (0x80, 0x9f) else (0x80, 0xbf)

/-- The least and the greatest second byte of a four-byte character that starts with `a`. -/
def secondOfFour (a : UInt8) : UInt8 × UInt8 :=
  if a == 0xf0 then (0x90, 0xbf) else if a == 0xf4 then (0x80, 0x8f) else (0x80, 0xbf)

/-- The six low bits that a continuation byte carries. -/
def tailBits (b : UInt8) : Nat := b.toNat % 64

/-- The rune at the head of `a :: rest`, and how many bytes of `rest` belong to it. -/
def readRune (a : UInt8) (rest : List UInt8) : Rune × Nat :=
  if a < 0x80 then (.char (Char.ofNat a.toNat), 0)
  else if 0xc2 ≤ a ∧ a ≤ 0xdf then
    match rest with
    | b :: _ =>
      if isTail b then (.char (Char.ofNat (a.toNat % 32 * 64 + tailBits b)), 1) else (.stray a, 0)
    | [] => (.stray a, 0)
  else if 0xe0 ≤ a ∧ a ≤ 0xef then
    match rest with
    | b :: c :: _ =>
      let (lo, hi) := secondOfThree a
      if lo ≤ b ∧ b ≤ hi ∧ isTail c then
        (.char (Char.ofNat ((a.toNat % 16 * 64 + tailBits b) * 64 + tailBits c)), 2)
      else (.stray a, 0)
    | _ => (.stray a, 0)
  else if 0xf0 ≤ a ∧ a ≤ 0xf4 then
    match rest with
    | b :: c :: d :: _ =>
      let (lo, hi) := secondOfFour a
      if lo ≤ b ∧ b ≤ hi ∧ isTail c ∧ isTail d then
        (.char (Char.ofNat (((a.toNat % 8 * 64 + tailBits b) * 64 + tailBits c) * 64 + tailBits d)),
          3)
      else (.stray a, 0)
    | _ => (.stray a, 0)
  else (.stray a, 0)

/-- The runes of a byte list whose first `n` bytes belong to the rune before. -/
def decodeFrom : Nat → List UInt8 → List Rune
  | _, [] => []
  | n + 1, _ :: rest => decodeFrom n rest
  | 0, a :: rest => (readRune a rest).1 :: decodeFrom (readRune a rest).2 rest

/-- The runes of the text. -/
def runes (t : Text) : List Rune := decodeFrom 0 t.bytes

/-- The text that a list of runes spells. -/
def ofRunes (rs : List Rune) : Text := ⟨rs.flatMap Rune.encode⟩

/-- The text that a list of characters spells. -/
def ofChars (cs : List Char) : Text := ⟨cs.flatMap String.utf8EncodeChar⟩

@[simp] theorem ofRunes_append (rs qs : List Rune) :
    ofRunes (rs ++ qs) = ofRunes rs ++ ofRunes qs := by
  show Text.mk _ = Text.mk (_ ++ _)
  rw [List.flatMap_append]
  rfl

/-- How many runes the text has; stray bytes count one each. -/
def runeCount (t : Text) : Nat := t.runes.length

/-- The characters, if every byte belongs to one. -/
def chars? (t : Text) : Option (List Char) :=
  t.runes.mapM fun
    | .char c => some c
    | .stray _ => none

/-- The string that the text spells, if it is well-formed UTF-8. -/
def toString? (t : Text) : Option String := t.chars?.map String.ofList

/-- True if the text is well-formed UTF-8. -/
def isUtf8 (t : Text) : Bool := t.runes.all fun
  | .char _ => true
  | .stray _ => false

end Text

end Stopwatch
