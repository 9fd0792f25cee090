import Stopwatch.Text.Printable
import Stopwatch.Text.Rune

/-!
# Quoted text

Names in messages stand in double quotation marks. Printable characters stand as they are; the
quote, the backslash and everything unprintable is escaped, so a quoted text is one line of
printable characters whatever the text holds.
-/

namespace Stopwatch

namespace Text

/-- How much a quoted form escapes. -/
inductive QuoteStyle where
  /-- Printable characters stand as they are. -/
  | printable
  /-- Only ASCII characters stand as they are. -/
  | ascii
deriving DecidableEq

/-- True if the character stands as it is. -/
def QuoteStyle.keeps (style : QuoteStyle) (n : Nat) : Bool :=
  match style with
  | .printable => isPrintable n
  | .ascii => n < 0x80 && isPrintable n

/-- The escape of a code point that may not stand as it is. -/
def escapeCode (n : Nat) : Text :=
  if n == 7 then "\\a"
  else if n == 8 then "\\b"
  else if n == 12 then "\\f"
  else if n == 10 then "\\n"
  else if n == 13 then "\\r"
  else if n == 9 then "\\t"
  else if n == 11 then "\\v"
  else if n < 0x20 ∨ n == 0x7f then "\\x" ++ hex 2 n
  else if n < 0x10000 then "\\u" ++ hex 4 n
  else "\\U" ++ hex 8 n

/-- One rune inside quotation marks `quote`. -/
def quoteRune (style : QuoteStyle) (quote : Char) : Rune → Text
  | .stray b => "\\x" ++ hex 2 b.toNat
  | .char c =>
    if c == quote ∨ c == '\\' then ofChars ['\\', c]
    else if style.keeps c.toNat then ofChars [c]
    else escapeCode c.toNat

/-- The text in double quotation marks. -/
def quoteAs (style : QuoteStyle) (t : Text) : Text :=
  "\"" ++ concat (t.runes.map (quoteRune style '"')) ++ "\""

/-- The text in double quotation marks, with printable characters as they are. -/
def quote (t : Text) : Text := quoteAs .printable t

/-- True if the text may stand between backquotes: one line, well-formed, no control characters but
the tab, and no backquote or byte order mark. -/
def canBackquote (t : Text) : Bool :=
  t.runes.all fun
    | .stray _ => false
    | .char c =>
      c.toNat != 0xfeff && (c == '\t' || (0x20 ≤ c.toNat && c.toNat != 0x7f && c.toNat != 0x60))

/-- A character in single quotation marks. -/
def quoteChar (style : QuoteStyle) (n : Nat) : Text :=
  "'" ++ quoteRune style (Char.ofNat 0x27)
    (.char (if n < 0x110000 then Char.ofNat n else Char.ofNat 0xfffd)) ++ "'"

end Text

end Stopwatch
