/-!
# Text

Text as the program reads and writes it: a sequence of bytes. It is nearly always UTF-8, but a name
or a message handed to the program may hold any byte, and is written back byte for byte. So the
carrier is `List UInt8`; characters are a view of it (`Stopwatch.Text.Rune`).

Every operation here is a list operation on the bytes, and the lemmas below say which.
-/

namespace Stopwatch

/-- A text is the list of its bytes. -/
structure Text where
  /-- The bytes, first byte first. -/
  bytes : List UInt8
deriving DecidableEq, Inhabited, Hashable

namespace Text

/-- The UTF-8 bytes of a string. -/
def ofString (s : String) : Text := ⟨s.toList.flatMap String.utf8EncodeChar⟩

instance : Coe String Text := ⟨ofString⟩

/-- The text without bytes. -/
def empty : Text := ⟨[]⟩

/-- One text after the other. -/
def append (a b : Text) : Text := ⟨a.bytes ++ b.bytes⟩

instance : Append Text := ⟨append⟩
instance : EmptyCollection Text := ⟨empty⟩

@[simp] theorem bytes_append (a b : Text) : (a ++ b).bytes = a.bytes ++ b.bytes := rfl

@[simp] theorem bytes_empty : (∅ : Text).bytes = [] := rfl

theorem append_assoc (a b c : Text) : a ++ b ++ c = a ++ (b ++ c) := by
  show Text.mk _ = Text.mk _
  simp

theorem empty_append (t : Text) : ∅ ++ t = t := rfl

theorem append_empty (t : Text) : t ++ ∅ = t := by
  show Text.mk _ = t
  simp

/-- All texts of a list, one after the other. -/
def concat (ts : List Text) : Text := ⟨ts.flatMap bytes⟩

@[simp] theorem bytes_concat (ts : List Text) : (concat ts).bytes = ts.flatMap bytes := rfl

theorem concat_nil : concat [] = ∅ := rfl

theorem concat_cons (t : Text) (ts : List Text) : concat (t :: ts) = t ++ concat ts := rfl

theorem concat_singleton (t : Text) : concat [t] = t := by
  show Text.mk _ = t
  simp

theorem concat_append (ts us : List Text) : concat (ts ++ us) = concat ts ++ concat us := by
  show Text.mk _ = Text.mk _
  simp

/-- The texts of a list with `sep` between neighbours. -/
def join (sep : Text) : List Text → Text
  | [] => ∅
  | [t] => t
  | t :: u :: ts => t ++ sep ++ join sep (u :: ts)

/-- The number of bytes. -/
def size (t : Text) : Nat := t.bytes.length

/-- True of the text without bytes. -/
def isEmpty (t : Text) : Bool := t.bytes.isEmpty

theorem isEmpty_iff {t : Text} : t.isEmpty = true ↔ t = ∅ := by
  obtain ⟨bytes⟩ := t
  have hempty : (∅ : Text) = ⟨[]⟩ := rfl
  simp [isEmpty, hempty]

/-- `n` copies of a text. -/
def replicate (n : Nat) (t : Text) : Text := concat (List.replicate n t)

/-- `n` spaces. -/
def spaces (n : Nat) : Text := ⟨List.replicate n 0x20⟩

@[simp] theorem bytes_spaces (n : Nat) : (spaces n).bytes = List.replicate n 0x20 := rfl

/-- The line break that ends each output line. -/
def newline : Text := ⟨[0x0a]⟩

/-- The byte of an ASCII character. -/
def byteOf (c : Char) : UInt8 := UInt8.ofNat c.toNat

/-- A natural number in decimal. -/
def ofNat (n : Nat) : Text := ofString (toString n)

/-- An integer in decimal, with a minus sign when negative. -/
def ofInt : Int → Text
  | .ofNat n => ofNat n
  | .negSucc n => "-" ++ ofNat (n + 1)

/-- The spelling of a truth value. -/
def ofBool (b : Bool) : Text := if b then "true" else "false"

/-! ## Order -/

/-- Byte sequences in dictionary order; a proper beginning comes first. -/
def bytesLe : List UInt8 → List UInt8 → Bool
  | [], _ => true
  | _ :: _, [] => false
  | a :: as, b :: bs => if a < b then true else if b < a then false else bytesLe as bs

/-- The order in which names are listed. -/
def le (a b : Text) : Bool := bytesLe a.bytes b.bytes

/-- Names in increasing order. -/
def sort (ts : List Text) : List Text := ts.mergeSort le

/-! ## Parts -/

/-- True if `t` begins with `head`. -/
def startsWith (t head : Text) : Bool := head.bytes.isPrefixOf t.bytes

/-- The text without its first `n` bytes. -/
def drop (t : Text) (n : Nat) : Text := ⟨t.bytes.drop n⟩

/-- The first `n` bytes of the text. -/
def take (t : Text) (n : Nat) : Text := ⟨t.bytes.take n⟩

/-- The pieces of a byte list between occurrences of `sep`; there is always at least one. -/
def splitBytes (sep : UInt8) : List UInt8 → List (List UInt8)
  | [] => [[]]
  | b :: bs =>
    match splitBytes sep bs with
    | [] => [[b]]
    | piece :: more => if b == sep then [] :: piece :: more else (b :: piece) :: more

/-- The pieces of the text between occurrences of a byte. -/
def split (t : Text) (sep : UInt8) : List Text := (splitBytes sep t.bytes).map Text.mk

/-- The lines of a text; a final line break does not open one more line. -/
def lines (t : Text) : List Text :=
  if t.isEmpty then [] else
    let pieces := t.split 0x0a
    if t.bytes.getLast? == some 0x0a then pieces.dropLast else pieces

/-- True if `part` occurs in the byte list. -/
def bytesContain (part : List UInt8) : List UInt8 → Bool
  | [] => part.isEmpty
  | b :: bs => part.isPrefixOf (b :: bs) || bytesContain part bs

/-- True if `part` occurs in the text. -/
def contains (t part : Text) : Bool := bytesContain part.bytes t.bytes

/-! ## Hexadecimal -/

/-- A digit of a base up to sixteen, in lower case. -/
def digitByte (n : Nat) : UInt8 := byteOf (Nat.digitChar n)

/-- `n` in lower-case hexadecimal, padded with zeros to `width` digits. -/
def hex (width n : Nat) : Text :=
  let ds := (Nat.toDigits 16 n).map byteOf
  ⟨List.replicate (width - ds.length) 0x30 ++ ds⟩

/-- A copy of the text in which ASCII lower-case letters are upper-case. -/
def asciiUpper (t : Text) : Text :=
  ⟨t.bytes.map fun b => if 0x61 ≤ b ∧ b ≤ 0x7a then b - 0x20 else b⟩

/-- Spaces on the left up to `width` bytes. The text is ASCII, so bytes are columns. -/
def padLeft (width : Nat) (t : Text) : Text := spaces (width - t.size) ++ t

/-- Spaces on the right up to `width` bytes. The text is ASCII, so bytes are columns. -/
def padRight (width : Nat) (t : Text) : Text := t ++ spaces (width - t.size)

end Text

end Stopwatch
