import Stopwatch.Decimal.Binary
import Stopwatch.Room
import Stopwatch.Text.Rune

/-!
# Plots in text

Series of percentages drawn with characters: a sparkline has one block of one of eight heights for
each value, and a dot plot has one dot for each value on a grid of braille cells, two dots wide and
four dots high each.

A percentage out of range is drawn at the end of the range. What is no number has no height, and a
series with such a value has no drawing.
-/

namespace Stopwatch

namespace Plot

/-! ## Scale -/

/-- True of minus zero and of negative numbers. -/
def isNegative (x : Float) : Bool := x.toBits >>> 63 == 1

/-- The lesser of two numbers. Minus infinity wins over all, then what is no number; minus zero is
below zero. -/
def least (x y : Float) : Float :=
  let low : Float := -1.0 / 0.0
  if x == low || y == low then low
  else if x.isNaN || y.isNaN then 0.0 / 0.0
  else if x == 0.0 && y == 0.0 then if isNegative x then x else y
  else if x < y then x else y

/-- The greater of two numbers. Infinity wins over all, then what is no number; zero is above minus
zero. -/
def greatest (x y : Float) : Float :=
  let high : Float := 1.0 / 0.0
  if x == high || y == high then high
  else if x.isNaN || y.isNaN then 0.0 / 0.0
  else if x == 0.0 && y == 0.0 then if isNegative x then y else x
  else if y < x then x else y

/-- A series brought to percentages of its range. -/
structure Scaled where
  values : List Float := []
  lo : Float := 0.0
  hi : Float := 0.0
deriving Inhabited

/-- Maps the least value to 0 and the greatest to 100; a series without range lies in the middle. -/
def rescale (values : List Float) : Scaled :=
  if values.isEmpty then {}
  else
    let lo := values.foldl least (1.0 / 0.0)
    let hi := values.foldl greatest (-1.0 / 0.0)
    let span := hi - lo
    { values := values.map fun v => if span == 0.0 then 50.0 else (v - lo) / span * 100.0, lo, hi }

/-- A percentage brought into its range. -/
def clamp (v : Float) : Float := greatest 0.0 (least 100.0 v)

/-- How many of `top` steps a percentage reaches. What is no number reaches the least 64-bit number.
-/
def level (top : Nat) (v : Float) : Int := (Binary.truncInt64 (clamp v / 100.0 * top.toFloat)).toInt

/-! ## Sparklines -/

/-- The blocks, the lowest first. -/
def blocks : List Char := ['▁', '▂', '▃', '▄', '▅', '▆', '▇', '█']

/-- The number of the highest block. -/
def highest : Nat := blocks.length - 1

/-- The block of a level; none below the lowest one. -/
def block? (level : Int) : Option Char :=
  let i := min level highest
  if i < 0 then none else blocks[i.toNat]?

/-- One block for each value. -/
def sparkline? (values : List Float) : Option Text :=
  (values.mapM fun v => block? (level highest v)).map Text.ofChars

/-! ## Dot plots -/

/-- The bit of a dot in a braille cell. The three upper rows of a column are numbered downwards,
column after column, and the lowest row comes last. -/
def dotBit (column row : Nat) : Nat :=
  if row < 3 then 1 <<< (row + 3 * column) else 1 <<< (6 + column)

/-- The braille cell in a row and column of the grid, given the height of the dot in each dot
column, counted from the top. -/
def cell (dots : Array (Option Nat)) (row column : Nat) : Char :=
  let bit (side : Nat) : Nat :=
    match dots.getD (2 * column + side) none with
    | some y => if y / 4 == row then dotBit side (y % 4) else 0
    | none => 0
  Char.ofNat (0x2800 + bit 0 + bit 1)

/-- The row of a value's dot on a grid, counted from the top; none outside of the grid. -/
def dotRow? (rows : Nat) (v : Float) : Option Nat :=
  let top := 4 * rows - 1
  let y := top - level top v
  if 0 ≤ y ∧ y < 4 * rows then some y.toNat else none

/-- The values of a series that fit on a grid. -/
def newest (values : List Float) (width : Nat) : List Float :=
  values.drop (values.length - 2 * width)

/-- The dots of a series on a grid, the newest value on the right edge; older values that do not fit
are left out. -/
def dots? (values : List Float) (width rows : Nat) : Option (Array (Option Nat)) :=
  let shown := newest values width
  (shown.mapM (dotRow? rows)).map fun ys =>
    (List.replicate (2 * width - shown.length) none ++ ys.map some).toArray

/-- True if there can be a grid of a width and a number of rows. A cell has four bytes, and each row
takes twenty-four of its own. -/
def isPossible (width rows : Int) : Bool := Room.holds 4 width && Room.holds 24 rows

/-- The lines of a dot plot; none if a value has no height or the grid is too large. -/
def lines? (values : List Float) (width rows : Int) : Option (List Text) :=
  if width ≤ 0 || rows ≤ 0 || values.isEmpty then some []
  else if !isPossible width rows then none
  else
    (dots? values width.toNat rows.toNat).map fun dots =>
      (List.range rows.toNat).map fun row =>
        Text.ofChars ((List.range width.toNat).map fun column => cell dots row column)

end Plot

end Stopwatch
