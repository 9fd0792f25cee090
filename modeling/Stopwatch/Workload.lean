import Stopwatch.Fibonacci
import Stopwatch.Fault
import Stopwatch.Prime
import Stopwatch.Prime.Sieve

/-!
# Workloads

A workload is a loop that can be run with a number of iterations and reports an outcome. What one
call does (its outcome, how long it takes, whether it ends the session, what it prints) is a
`Reply`; a workload answers its calls by a `Plan`, either always alike or call by call. The built-in
workloads take no time of their own on the program's clock.
-/

namespace Stopwatch

/-- What a run computed; fields that do not apply are zero. -/
structure Outcome where
  iterations : UInt64 := 0
  /-- The number of primes found. -/
  primes : Int := 0
  /-- The last number of a prime scan. -/
  last : Int64 := 0
  t1 : UInt64 := 0
  t2 : UInt64 := 0
deriving DecidableEq, Inhabited

/-- The final pair of a Fibonacci run. -/
def Outcome.pair (o : Outcome) : Fibonacci.Pair := ⟨o.t1, o.t2⟩

/-- What one call does. -/
structure Reply where
  outcome : Outcome := {}
  /-- How long the call takes. -/
  takes : Duration := 0
  /-- True if the call ends the session. -/
  cancels : Bool := false
  /-- The primes it prints, in order. -/
  printed : List Int64 := []
deriving Inhabited

/-- The replies to the calls of a workload, the first call having number zero. -/
inductive Plan where
  /-- Every call is alike. -/
  | always (reply : Reply)
  /-- Each call has its own reply. -/
  | each (reply : Nat → Reply)
deriving Inhabited

namespace Plan

/-- The reply to a call. -/
def reply : Plan → Nat → Reply
  | always r, _ => r
  | each f, i => f i

/-- The plan after the first `n` calls. -/
def skip (n : Nat) : Plan → Plan
  | always r => always r
  | each f => each fun i => f (n + i)

end Plan

/-- A timed loop. -/
structure Workload where
  name : Text
  description : Text := ∅
  defaultIterations : UInt64 := 1
  /-- Whether the standard deviation belongs to the summary. -/
  reportsSpread : Bool := false
  /-- Whether the coefficient of variation belongs to the summary. -/
  reportsVariation : Bool := false
  /-- Workloads of one group must find equally many primes; the empty group has no such rule. -/
  group : Text := ∅
  /-- The greatest number of iterations the loop's own state allows. -/
  bound : UInt64 := 0xffffffffffffffff
  /-- What calls with a number of iterations do. -/
  plan : UInt64 → Plan
deriving Inhabited

namespace Workload

/-- The greatest number of iterations of any workload. -/
def maxIterations : UInt64 := 0x7fffffffffffffff

/-- The greatest number of iterations the workload may be run with. -/
def limit (w : Workload) : UInt64 := min w.bound maxIterations

/-- The workload as it behaves after `n` calls. -/
def after (w : Workload) (n : Nat) : Workload := { w with plan := fun k => (w.plan k).skip n }

/-! ## Prime scan -/

/-- Counts the primes among the `count` numbers after `last`, and keeps the last number. -/
def scanFrom : Nat → Int64 → Nat → Nat × Int64
  | 0, last, found => (found, last)
  | count + 1, last, found =>
    let n := last + 1
    scanFrom count n (if Prime.isPrime n then found + 1 else found)

/-- The primes among the `count` numbers after `last`, in order. -/
def primesAfter : Nat → Int64 → List Int64
  | 0, _ => []
  | count + 1, last =>
    let n := last + 1
    if Prime.isPrime n then n :: primesAfter count n else primesAfter count n

/-- What a prime scan from `start` computes. -/
def scanOutcome (start : Int64) (k : UInt64) : Outcome :=
  let (found, last) := scanFrom k.toNat start 0
  { iterations := k, primes := found, last := last }

/-- Tests the numbers after `start` one by one, and prints the primes among them if asked to. -/
def primeScan (start : Int64) (printing : Bool) : Workload where
  name := "prime-scan"
  description := "increment a counter and test each value with 6k±1 trial division"
  defaultIterations := 100000
  bound := 0x7fffffffffffffff - start.toUInt64
  plan k := .always
    { outcome := scanOutcome start k
      printed := if printing then primesAfter k.toNat start else [] }

/-! ## Counting primes -/

/-- The group of the workloads that count primes up to the number of iterations. -/
def primesUpTo : Text := "primes-up-to-k"

/-- The number of primes from two to `k`, each number tested by itself. -/
def countUpTo (k : UInt64) : Nat := Prime.countFrom (k.toNat - 1) 2 0

/-- Counts primes by testing each number. -/
def primeCount : Workload where
  name := "prime-count"
  description := "count primes in [2, K] with 6k±1 trial division"
  defaultIterations := 1000000
  reportsSpread := true
  group := primesUpTo
  plan k := .always { outcome := { iterations := k, primes := countUpTo k } }

/-- The greatest number of iterations of the sieve, which keeps a table of that size. -/
def maxSieve : UInt64 := 0x40000000

/-- Counts primes with a sieve, which has an answer for every number of iterations up to the
greatest. -/
def sieve : Workload where
  name := "sieve"
  description := "count primes in [2, K] with a sieve of Eratosthenes"
  defaultIterations := 1000000
  reportsSpread := true
  group := primesUpTo
  bound := maxSieve
  plan k := .always
    { outcome := { iterations := k, primes := (Prime.countBySieve? k.toInt64).getD 0 } }

/-! ## Fibonacci -/

/-- Advances the Fibonacci pair. -/
def fibonacci : Workload where
  name := "fibonacci"
  description := "advance the Fibonacci pair (t1, t2) -> (t2, t1+t2), wrapping at 2^64"
  defaultIterations := 10000000
  reportsSpread := true
  reportsVariation := true
  plan k :=
    let p := Fibonacci.Pair.start.advance k
    .always { outcome := { iterations := k, t1 := p.t1, t2 := p.t2 } }

end Workload

end Stopwatch
