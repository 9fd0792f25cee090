/-!
# Fibonacci numbers by doubling

The exact pair `(F(n), F(n+1))` is found along the bits of `n`, the highest first, by
`F(2k) = F(k) (2 F(k+1) - F(k))` and `F(2k+1) = F(k)² + F(k+1)²`. All of this happens in four
places, whose numbers are overwritten: two hold the pair and two what is computed on the way. A step
from a pair to the next one writes the sum over the first number and lets the two places change
their parts.
-/

namespace Stopwatch

namespace Fibonacci

/-- A place for a number. -/
inductive Place where
  | left
  | right
  | product
  | square
deriving DecidableEq

/-- What the places hold, and which of them are those of the first and the second number of the
pair. -/
structure Workspace where
  holds : Place → Int
  a : Place
  b : Place

namespace Workspace

/-- The pair of zero. -/
def start : Workspace where
  holds x := if x = .right then 1 else 0
  a := .left
  b := .right

/-- Overwrites the number in a place. -/
def put (w : Workspace) (z : Place) (n : Int) : Workspace :=
  { w with holds := fun x => if x = z then n else w.holds x }

/-- From the pair of `k` to the pair of `2 * k`. -/
def double (w : Workspace) : Workspace :=
  let w := w.put .product (2 * w.holds w.b)
  let w := w.put .product (w.holds .product - w.holds w.a)
  let w := w.put .product (w.holds w.a * w.holds .product)
  let w := w.put .square (w.holds w.b * w.holds w.b)
  let w := w.put w.b (w.holds w.a * w.holds w.a)
  let w := w.put w.b (w.holds w.b + w.holds .square)
  w.put w.a (w.holds .product)

/-- From the pair of `k` to the pair of `k + 1`. -/
def next (w : Workspace) : Workspace :=
  let w := w.put w.a (w.holds w.a + w.holds w.b)
  { w with a := w.b, b := w.a }

/-- What is done for one bit. -/
def round (w : Workspace) (bit : Bool) : Workspace := if bit then w.double.next else w.double

/-- What is done for the given number of low bits of `n`, the highest of them first. -/
def rounds (n : Nat) : Nat → Workspace → Workspace
  | 0, w => w
  | bit + 1, w => rounds n bit (w.round (n.testBit bit))

end Workspace

/-- The exact pair `(F(n), F(n+1))`. -/
def exactPair (n : UInt64) : Int × Int :=
  let w := Workspace.start.rounds n.toNat 64
  (w.holds w.a, w.holds w.b)

/-- The exact number `F(n)`. -/
def exact (n : UInt64) : Int := (exactPair n).1

end Fibonacci

end Stopwatch
