import Stopwatch.Dashboard.Wrapping
import Stopwatch.Room
import Stopwatch.Text.Measure

/-!
# Blocks of text

A block is a text of one or more lines on a terminal. Blocks are wrapped at a width, evened out to
rectangles, framed as panels, and put beside or above each other. All widths count terminal cells.
-/

namespace Stopwatch

namespace Block

/-- The lines of a block; there is always at least one. -/
def lines (t : Text) : List Text := t.split 0x0a

/-- The block of some lines. -/
def ofLines (ls : List Text) : Text := Text.join Text.newline ls

/-- The number of lines. -/
def height (t : Text) : Nat := (lines t).length

/-- The width of the widest of some lines. -/
def widest (ls : List Text) : Nat := (ls.map Text.cells).foldl max 0

/-- The width of a block. -/
def width (t : Text) : Nat := widest (lines t)

/-- A line with spaces on the right up to a width. -/
def pad (w : Nat) (line : Text) : Text := line ++ Text.spaces (w - line.cells)

/-- Lines padded to the widest of them, and at least to a width. -/
def even (least : Nat) (ls : List Text) : List Text := ls.map (pad (max least (widest ls)))

/-- The bytes with four spaces for each tab and one line break for a return and a line break. -/
def tidyBytes : List UInt8 → List UInt8
  | [] => []
  | 0x09 :: bs => 0x20 :: 0x20 :: 0x20 :: 0x20 :: tidyBytes bs
  | 0x0d :: 0x0a :: bs => 0x0a :: tidyBytes bs
  | b :: bs => b :: tidyBytes bs

/-- A text with tabs as spaces and plain line breaks. -/
def tidy (t : Text) : Text := ⟨tidyBytes t.bytes⟩

/-- A text as it is put among others: tidy, and a rectangle if it has several lines. -/
def settle (t : Text) : Text := ofLines (even 0 (lines (tidy t)))

/-! ## Panels -/

/-- A text in a frame with room for a width and a height; sizes that are not positive leave it to
the text. -/
def panel (w h : Int) (t : Text) : Text :=
  let ls := lines (Wrapping.wrap w.toNat (tidy t))
  let ls := even w.toNat (ls ++ List.replicate (h.toNat - ls.length) ∅)
  let edge := Text.replicate (widest ls) "─"
  let side : Text := "│"
  ofLines (["╭" ++ edge ++ "╮"] ++ ls.map (fun l => side ++ l ++ side) ++ ["╰" ++ edge ++ "╯"])

/-- True if something with a side of that length can be drawn. -/
def isDrawable (side : Int) : Bool := Room.holds 1 (max side 0)

/-- A text in a frame with room for a width and a height; none if a side is too long. -/
def panel? (w h : Int64) (t : Text) : Option Text :=
  if isDrawable w.toInt && isDrawable h.toInt then some (panel w.toInt h.toInt t) else none

/-- A text with a space on either side, wrapped and padded to a width. -/
def banner (w : Int) (t : Text) : Text :=
  let ls := lines (if 0 < w then Wrapping.wrap (w - 2).toNat (tidy t) else tidy t)
  ofLines (even w.toNat (ls.map fun l => Text.spaces 1 ++ l ++ Text.spaces 1))

/-! ## Composition -/

/-- Blocks below each other, all padded to the widest of them. -/
def above (ts : List Text) : Text := ofLines (even 0 (ts.flatMap lines))

/-- The given line of a block, padded to the block's width; empty below the block. -/
def row (t : Text) (i : Nat) : Text := pad (width t) ((lines t).getD i ∅)

/-- Blocks beside each other, aligned at the top. -/
def beside (ts : List Text) : Text :=
  let tallest := (ts.map height).foldl max 0
  ofLines ((List.range tallest).map fun i => Text.concat (ts.map fun t => row t i))

end Block

end Stopwatch
