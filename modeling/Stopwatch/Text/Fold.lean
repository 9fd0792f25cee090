import Stopwatch.Text.Rune

/-!
# White space and letter case

What a setting's value may be surrounded by, and when two spellings of a word count as one.

Case matters here only for words spelled in ASCII (and the micro sign, which is lower case). Besides
the ASCII capitals two characters have an ASCII small letter: U+0130 (`i`) and U+212A (`k`); one
more, U+017F, is a variant of `s` that comparison ignores and lower-casing keeps.
-/

namespace Stopwatch

namespace Text

/-- The code points that count as white space. -/
def isBlankCode (n : Nat) : Bool :=
  (0x09 ≤ n ∧ n ≤ 0x0d) || n == 0x20 || n == 0x85 || n == 0xa0 || n == 0x1680 ||
    (0x2000 ≤ n ∧ n ≤ 0x200a) || n == 0x2028 || n == 0x2029 || n == 0x202f || n == 0x205f ||
    n == 0x3000

/-- White space; a stray byte is none. -/
def isBlank (r : Rune) : Bool := isBlankCode r.code

/-- The text without white space at its two ends. -/
def trim (t : Text) : Text :=
  ofRunes (((t.runes.dropWhile isBlank).reverse.dropWhile isBlank).reverse)

/-- The small letter of a character, as far as it is ASCII; other characters stay. -/
def lowerChar (c : Char) : Char :=
  if c.toNat == 0x130 then 'i' else if c.toNat == 0x212a then 'k' else c.toLower

/-- The text in small letters. -/
def lower (t : Text) : Text :=
  ofRunes (t.runes.map fun
    | .char c => .char (lowerChar c)
    | .stray b => .stray b)

/-- The character that stands for all spellings of a letter in a comparison that ignores case. -/
def caseKey (c : Char) : Char :=
  if c.toNat == 0x17f then 's' else if c.toNat == 0x212a then 'k' else c.toLower

/-- True if the two texts are one word up to letter case. -/
def sameWord (a b : Text) : Bool :=
  a.runes.map key == b.runes.map key
where
  /-- The comparison key of a rune. -/
  key : Rune → Rune
    | .char c => .char (caseKey c)
    | .stray b => .stray b

end Text

end Stopwatch
