import Stopwatch.Fibonacci.Doubling

/-!
# Fibonacci numbers

The recurrence in 64-bit words, which wraps, and the exact numbers reduced to words.
-/

namespace Stopwatch

namespace Fibonacci

/-- Two neighbouring terms as 64-bit words. -/
structure Pair where
  t1 : UInt64
  t2 : UInt64
deriving DecidableEq, Inhabited

/-- The first two terms, `F(0)` and `F(1)`. -/
def Pair.start : Pair := ⟨0, 1⟩

/-- The next pair. -/
def Pair.step (p : Pair) : Pair := ⟨p.t2, p.t1 + p.t2⟩

/-- `n` steps from the pair `(t1, t2)`. -/
def iterate : Nat → UInt64 → UInt64 → Pair
  | 0, t1, t2 => ⟨t1, t2⟩
  | n + 1, t1, t2 => iterate n t2 (t1 + t2)

/-- The pair after `k` steps. -/
def Pair.advance (p : Pair) (k : UInt64) : Pair := iterate k.toNat p.t1 p.t2

/-- The greatest index whose pair fits in words: `F(93)` is the last term below `2 ^ 64`. -/
def maxExactIndex : Nat := 92

/-- The exact pair reduced to words. -/
def wrapped (k : UInt64) : Pair :=
  let (a, b) := exactPair k
  ⟨UInt64.ofInt a, UInt64.ofInt b⟩

end Fibonacci

end Stopwatch
