/-!
# The window

How the dashboard divides its window: a line on top and one at the bottom, the log on the left, and
on the right the figures above the chart. Sizes are 64-bit words, and so is the arithmetic on them:
the share of the log in a window of absurd width is taken of what the word has kept.
-/

namespace Stopwatch

/-- The size of a terminal window. -/
structure Window where
  width : Int64
  height : Int64
deriving DecidableEq, Inhabited

namespace Window

/-- The least height of the body. -/
def leastBody : Int64 := 4

/-- The share of the log in the width, in percent. -/
def logShare : Int64 := 55

/-- The height of the figures where there is room for it. -/
def figuresRows : Int64 := 7

/-- The height between the lines at the top and at the bottom. -/
def bodyHeight (w : Window) : Int64 := max (w.height - 2) leastBody

/-- The width of the log. -/
def logWidth (w : Window) : Int64 := w.width * logShare / 100

/-- The width of the figures and the chart. -/
def rightWidth (w : Window) : Int64 := w.width - w.logWidth

/-- The height of the figures, which take at most half of the body. -/
def figuresHeight (w : Window) : Int64 := min figuresRows (w.bodyHeight / 2)

/-- The height of the chart. -/
def chartHeight (w : Window) : Int64 := w.bodyHeight - w.figuresHeight

end Window

end Stopwatch
