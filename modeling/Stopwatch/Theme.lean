import Stopwatch.Text

/-!
# Themes

The control sequences that color the output, by what they mark. The theme without colors has only
empty sequences, so callers write them unconditionally.
-/

namespace Stopwatch

/-- The control sequences of one color scheme. -/
structure Theme where
  name : Text
  primary : Text := ∅
  secondary : Text := ∅
  success : Text := ∅
  warning : Text := ∅
  error : Text := ∅
  info : Text := ∅
  bold : Text := ∅
  underline : Text := ∅
  reset : Text := ∅
deriving Inhabited

/-- The colors of the dashboard, as hexadecimal triples; empty where the terminal's own color is
used. -/
structure Palette where
  background : Text := ∅
  text : Text := ∅
  border : Text := ∅
  accent : Text := ∅
  success : Text := ∅
  warning : Text := ∅
  error : Text := ∅
  dim : Text := ∅
  info : Text := ∅
deriving Inhabited

namespace Theme

/-- Colors for a dark background. -/
def dark : Theme where
  name := "dark"
  primary := "\x1b[38;5;39m"
  secondary := "\x1b[38;5;245m"
  success := "\x1b[38;5;82m"
  warning := "\x1b[38;5;220m"
  error := "\x1b[38;5;196m"
  info := "\x1b[38;5;141m"
  bold := "\x1b[1m"
  underline := "\x1b[4m"
  reset := "\x1b[0m"

/-- Colors for a light background. -/
def light : Theme where
  name := "light"
  primary := "\x1b[38;5;27m"
  secondary := "\x1b[38;5;240m"
  success := "\x1b[38;5;28m"
  warning := "\x1b[38;5;130m"
  error := "\x1b[38;5;124m"
  info := "\x1b[38;5;54m"
  bold := "\x1b[1m"
  underline := "\x1b[4m"
  reset := "\x1b[0m"

/-- No colors. -/
def plain : Theme where
  name := "none"

/-- The names that a setting may give. -/
def names : List Text := ["dark", "light"]

/-- The theme of a name; unknown names give the dark one. -/
def ofName (name : Text) : Theme :=
  if name == "light" then light else if name == "none" then plain else dark

/-- The theme before settings are read: no colors if they are switched off, by the flag or because
the environment says so. -/
def initial (noColor environmentForbids : Bool) : Theme :=
  if noColor || environmentForbids then plain else dark

/-- The sequences by color: red, green, yellow, blue, magenta, cyan, grey, bold, underline, reset.
-/
def sequences (t : Theme) : List Text :=
  [t.error, t.success, t.warning, t.primary, t.info, t.primary, t.secondary,
    t.bold, t.underline, t.reset]

/-- The dashboard's colors under a theme. -/
def palette (t : Theme) : Palette :=
  if t.name == "none" then {}
  else if t.name == "light" then
    { background := "#FFFFFF", text := "#1F2328", border := "#0969DA", accent := "#0550AE"
      success := "#1A7F37", warning := "#9A6700", error := "#CF222E",
        dim := "#8C959F", info := "#8250DF" }
  else
    { background := "#000000", text := "#E0E0E0", border := "#3A7BD5", accent := "#00B4D8"
      success := "#9ece6a", warning := "#FFB347", error := "#FF4444",
        dim := "#666666", info := "#B388FF" }

/-- A text between a color and the reset sequence. -/
def paint (t : Theme) (color : Text) (body : Text) : Text := color ++ body ++ t.reset

end Theme

namespace Palette

/-- The colors in the order background, text, border, accent, success, warning, error, dim, info. -/
def toList (p : Palette) : List Text :=
  [p.background, p.text, p.border, p.accent, p.success, p.warning, p.error, p.dim, p.info]

end Palette

end Stopwatch
