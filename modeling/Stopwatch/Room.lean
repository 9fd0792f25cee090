/-!
# Room in memory

Items that are set aside all at once lie in one block of memory, and a block has at most `2 ^ 48`
bytes. Whoever asks for more does not get it, however little of it would be used.
-/

namespace Stopwatch

namespace Room

/-- The greatest number of bytes in a block. -/
def most : Nat := 1 <<< 48

/-- True if there can be a block of `count` items with `size` bytes each. -/
def holds (size : Nat) (count : Int) : Bool := 0 ≤ count && count * size ≤ most

end Room

end Stopwatch
