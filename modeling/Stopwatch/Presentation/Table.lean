import Stopwatch.Presentation
import Stopwatch.Session

/-!
# The comparison table

One row for each result, under a heading. A column is as wide as its widest cell, counted in
characters, and three spaces divide it from the next; colors take no room. A cell that is more than
a million characters narrower than its column is not filled up: the text says so in place of the
spaces.

`Verdict.text` shows a whole verdict on the terminal.
-/

namespace Stopwatch

namespace Presentation

/-- A cell, the color it is shown in, and whether that color is switched off after it. -/
structure Cell where
  text : Text
  /-- The control sequence before the text; none where there is no color at all. -/
  color : Option Text := none

namespace Cell

/-- The most spaces that a cell is filled up with. -/
def mostSpaces : Nat := 1000000

/-- What fills a cell up by a number of characters; too great a number is reported in the text
itself. -/
def filler (n : Nat) : Text := if mostSpaces < n then "%!(BADWIDTH)" else Text.spaces n

/-- The number of characters. -/
def width (c : Cell) : Nat := c.text.runeCount

/-- The cell with its color. -/
def painted (theme : Theme) (c : Cell) : Text :=
  match c.color with
  | some color => theme.paint color c.text
  | none => c.text

/-- The cell, filled up to a width, and the space between columns. -/
def padded (theme : Theme) (width : Nat) (c : Cell) : Text :=
  c.painted theme ++ filler (width - c.width) ++ "   "

end Cell

/-- The headings of the columns with values. -/
def headings (p : Presentation) (theme : Theme) : List Cell :=
  [⟨"Workload", some theme.underline⟩, ⟨"Mean " ++ p.unit.label, some theme.underline⟩,
    ⟨"Stdev", some theme.underline⟩, ⟨"CV (%)", some theme.underline⟩]

/-- The values of a result; a dash stands where there is none. -/
def valueCells (p : Presentation) (theme : Theme) (r : Result) : List Cell :=
  let s := summaryIn p.unit r
  let precision := p.precisionFor r
  [⟨r.name, some theme.primary⟩,
    ⟨if 0 < s.n then fixedText s.mean precision else "-", some theme.warning⟩,
    ⟨if s.hasSpread then fixedText s.stddev precision else "-", none⟩,
    ⟨if s.hasSpread then fixedText s.variation percentPrecision else "-", none⟩]

/-- Whether a result succeeded, and if not, why. -/
def statusCell (theme : Theme) (r : Result) : Cell :=
  match r.fault with
  | some f => ⟨"❌ Failure (" ++ f.message ++ ")", some theme.error⟩
  | none => ⟨"✅ Success", some theme.success⟩

/-- The widths of columns that hold all given rows. -/
def columnWidths (rows : List (List Cell)) : List Nat :=
  rows.foldl (fun widths row => List.zipWith max widths (row.map Cell.width)) [0, 0, 0, 0]

/-- A row of the table; the last cell is not filled up. -/
def rowText (theme : Theme) (widths : List Nat) (cells : List Cell) (last : Cell) : Text :=
  Text.concat (List.zipWith (Cell.padded theme) widths cells) ++ last.painted theme ++ "\n"

/-- The results side by side. -/
def tableText (p : Presentation) (theme : Theme) (results : List Result) : Text :=
  let heading := p.headings theme
  let rows := results.map (p.valueCells theme)
  let widths := columnWidths (heading :: rows)
  "\n--- Comparison Summary ---\n" ++
    rowText theme widths heading ⟨"Status", some theme.underline⟩ ++
    Text.concat (results.map fun r => rowText theme widths
      (p.valueCells theme r) (statusCell theme r))

/-- An announcement on the terminal. -/
def announce (p : Presentation) (theme : Theme) : Announcement → Text
  | .table results => p.tableText theme results
  | .nothingCompleted =>
    if p.quiet then ∅ else "\nGlobal Status: Failure. No benchmark completed.\n"
  | .disagreement d => "\nGlobal Status: CRITICAL ERROR! " ++ d.message ++ "\n"
  | .result r => p.resultText theme r
  | .failure f => (Fault.handle theme 0 f).1

end Presentation

/-- A verdict on the terminal. -/
def Verdict.text (v : Verdict) (p : Presentation) (theme : Theme) : Text :=
  Text.concat (v.announcements.map (p.announce theme))

end Stopwatch
