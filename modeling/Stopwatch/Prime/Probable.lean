/-!
# Probable primes

The second reference for the primality predicate: trial division by the primes below 60, one
strong-probable-prime test to base two, and a Lucas test. No composite number below `2 ^ 64` passes
all three.

`squares` is structural in the number of squarings left, `jacobi` ends because its lower argument
decreases, and the search for a Lucas parameter is bounded by the parameter's cap.
-/

namespace Stopwatch

namespace Prime

/-- The primes below 64 are told by a list. -/
def smallPrimes : List Nat := [2, 3, 5, 7, 11, 13, 17, 19, 23, 29, 31, 37, 41, 43, 47, 53, 59, 61]

/-- Divisors that are tried before the tests proper. -/
def trialPrimes : List Nat := [3, 5, 7, 11, 13, 17, 19, 23, 29, 31, 37, 41, 43, 47, 53]

/-- `x ^ e` modulo `n`, by squaring. -/
def powMod (n x e : Nat) : Nat :=
  if e = 0 then 1 % n
  else
    let half := powMod n (x * x % n) (e / 2)
    if e % 2 == 1 then half * x % n else half
termination_by e
decreasing_by omega

/-- The number of factors two in `n`, and what remains without them. -/
def oddPart (n : Nat) : Nat × Nat :=
  if n = 0 ∨ n % 2 = 1 then (0, n)
  else
    let (k, q) := oddPart (n / 2)
    (k + 1, q)
termination_by n
decreasing_by omega

/-- True if one of `y`, `y²`, `y⁴`, … is `n - 1`, for the given number of values. -/
def squares (n : Nat) : Nat → Nat → Bool
  | 0, _ => false
  | more + 1, y => y == n - 1 || squares n more (y * y % n)

/-- The strong test to base two, for an odd number. -/
def strongTest (n : Nat) : Bool :=
  let (k, q) := oddPart (n - 1)
  let y := powMod n 2 q
  y == 1 || squares n k y

/-- The Jacobi symbol of `a` over an odd `n`, times `sign`. -/
def jacobi (a n : Nat) (sign : Int) : Int :=
  if a % n == 0 then (if n == 1 then sign else 0)
  else
    let (k, q) := oddPart (a % n)
    let sign := if k % 2 == 1 && (n % 8 == 3 || n % 8 == 5) then -sign else sign
    let sign := if q % 4 == 3 && n % 4 == 3 then -sign else sign
    if q < n then jacobi n q sign else 0
termination_by n

/-- The greatest number with its lowest `bits` bits free, above `r`, whose square is at most `n`. -/
def rootBits (n : Nat) : Nat → Nat → Nat
  | 0, r => r
  | bits + 1, r =>
    let t := r + (1 <<< bits)
    rootBits n bits (if t * t ≤ n then t else r)

/-- True if the number is a square. -/
def isSquare (n : Nat) : Bool :=
  let r := rootBits n (n.log2 / 2 + 1) 0
  r * r == n

/-- How the search for a Lucas parameter ends. -/
inductive LucasChoice where
  /-- The number is known to be prime or composite. -/
  | settled (prime : Bool)
  /-- The test proper is to be made with this parameter. -/
  | parameter (p : Nat)

/-- Looks for the least `p` from the given one on for which `p² - 4` is no square modulo `n`. At
`p = 40` squares are sorted out, for which there is none. -/
def lucasParameter (n : Nat) : Nat → Nat → LucasChoice
  | 0, _ => .settled false
  | more + 1, p =>
    let j := jacobi (p * p - 4) n 1
    if j == -1 then .parameter p
    else if j == 0 then .settled (n == p + 2)
    else if p == 40 && isSquare n then .settled false
    else lucasParameter n more (p + 1)

/-- The Lucas values `V(s)` and `V(s + 1)` modulo `n` for the parameter `p`, by the bits of `s` from
the given one down. -/
def lucasValues (n p s : Nat) : Nat → Nat × Nat → Nat × Nat
  | 0, v => v
  | bit + 1, (vk, vk1) =>
    let mixed := (vk * vk1 + n - p) % n
    if s.testBit bit then lucasValues n p s bit (mixed, (vk1 * vk1 + (n - 2)) % n)
    else lucasValues n p s bit ((vk * vk + (n - 2)) % n, mixed)

/-- True if one of `V(s)`, `V(2s)`, `V(4s)`, … is zero modulo `n`, for the given number of values.
-/
def lucasZero (n : Nat) : Nat → Nat → Bool
  | 0, _ => false
  | more + 1, v =>
    if v == 0 then true else if v == 2 then false else lucasZero n more ((v * v + (n - 2)) % n)

/-- The Lucas test, for an odd number above the parameters tried. -/
def lucasTest (n : Nat) : Bool :=
  match lucasParameter n 10000 3 with
  | .settled answer => answer
  | .parameter p =>
    let (r, s) := oddPart (n + 1)
    let (vk, vk1) := lucasValues n p s (s.log2 + 1) (2, p)
    let unit := (vk == 2 || vk == n - 2) && (vk * p) % n == (2 * vk1) % n
    unit || lucasZero n (r - 1) vk

/-- Whether a natural number passes all tests. -/
def isProbablePrimeNat (n : Nat) : Bool :=
  if n < 64 then smallPrimes.contains n
  else if n % 2 == 0 || trialPrimes.any (fun p => n % p == 0) then false
  else strongTest n && lucasTest n

/-- Whether a signed 64-bit number passes all tests; none below two does. -/
def isProbablePrime (n : Int64) : Bool := 2 ≤ n && isProbablePrimeNat n.toInt.toNat

end Prime

end Stopwatch
