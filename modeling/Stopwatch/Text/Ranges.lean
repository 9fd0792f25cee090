/-!
# Ranges of characters

A property of characters is listed as ranges of code points in increasing order, and looked up by
halving.
-/

namespace Stopwatch

namespace Text

/-- Looks for `n` in the ranges from index `lo` to below `hi`, halving the stretch each time. -/
def inRanges (table : Array (Nat × Nat)) (n lo hi : Nat) : Bool :=
  if lo < hi then
    let mid := (lo + hi) / 2
    match table[mid]? with
    | none => false
    | some (a, b) =>
      if n < a then inRanges table n lo mid
      else if b < n then inRanges table n (mid + 1) hi
      else true
  else false
termination_by hi - lo

/-- True if `n` is in one of the ranges. -/
def isWithin (table : Array (Nat × Nat)) (n : Nat) : Bool := inRanges table n 0 table.size

end Text

end Stopwatch
