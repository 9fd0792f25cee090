import Stopwatch.TimeUnit

/-!
# Memory use

A reading of the memory counters, and the change between two readings. Counters are words and their
difference wraps; the memory in use may shrink, so its change is signed.
-/

namespace Stopwatch

namespace Memory

/-- The memory counters at one time. -/
structure Reading where
  /-- Bytes in use. -/
  inUse : UInt64 := 0
  /-- Bytes ever allocated. -/
  allocated : UInt64 := 0
  /-- Objects ever allocated. -/
  objects : UInt64 := 0
  /-- Completed collections. -/
  collections : UInt32 := 0
  /-- Nanoseconds ever spent in collections. -/
  pauses : UInt64 := 0
deriving DecidableEq, Inhabited

/-- The change between two readings. -/
structure Change where
  inUse : Int64 := 0
  allocated : UInt64 := 0
  objects : UInt64 := 0
  collections : UInt32 := 0
  pauses : UInt64 := 0
deriving DecidableEq, Inhabited

/-- The change from one reading to a later one. -/
def Reading.change (before after : Reading) : Change where
  inUse := after.inUse.toInt64 - before.inUse.toInt64
  allocated := after.allocated - before.allocated
  objects := after.objects - before.objects
  collections := after.collections - before.collections
  pauses := after.pauses - before.pauses

/-- The bytes of a signed change, with a minus sign if memory was given back. -/
def Change.inUseText (c : Change) : Text :=
  let size := bytesText (UInt64.ofNat c.inUse.toInt.natAbs)
  if c.inUse < 0 then "-" ++ size else size

/-- The time spent in collections. -/
def Change.pauseText (c : Change) : Text :=
  if c.pauses == 0 then "0ms" else FloatText.fixed 2 (c.pauses.toFloat / 1000000.0) ++ "ms"

/-- The change as it is shown below a summary. -/
def Change.text (c : Change) : Text :=
  "\nMemory Stats:\n" ++
    "  Heap change:     " ++ c.inUseText ++ "\n" ++
    "  Total allocated: " ++ bytesText c.allocated ++ "\n" ++
    "  Allocations:     " ++ Text.ofNat c.objects.toNat ++ "\n" ++
    "  GC cycles:       " ++ Text.ofNat c.collections.toNat ++ "\n" ++
    "  GC pause total:  " ++ c.pauseText ++ "\n"

end Memory

end Stopwatch
