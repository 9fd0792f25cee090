import Mathlib.Data.Nat.Fib.Basic
import Mathlib.Tactic.Ring
import Stopwatch.Fibonacci.Doubling

/-!
# Doubling in place is exact

A doubling overwrites the pair while it reads it, and the places of the pair change their parts. As
long as the pair and what is computed on the way lie in four places (`Apart`), no number is
overwritten before it was read for the last time: what a doubling leaves are the two products of the
numbers it began with (`holds_double_a`, `holds_double_b`), and those are the identities of
doubling. So after the highest bits of an index have been read, the workspace holds the pair of the
number that they spell (`RoundReaches.holdsPair`), the zeros at the front included.
-/

namespace Stopwatch.Fibonacci

open Nat (fib)

namespace Workspace

variable {w : Workspace} {x z : Place} {v : ℤ} {n k bit : ℕ}

/-! ## Places -/

@[simp] theorem a_put : (w.put z v).a = w.a := rfl

@[simp] theorem b_put : (w.put z v).b = w.b := rfl

@[simp] theorem holds_put_self : (w.put z v).holds z = v := if_pos rfl

theorem holds_put_of_ne (h : x ≠ z) : (w.put z v).holds x = w.holds x := if_neg h

/-- The pair and what is computed on the way have four places. -/
def Apart (w : Workspace) : Prop := [w.a, w.b, .product, .square].Nodup

theorem apart_iff : w.Apart ↔ w.a ≠ w.b ∧ (w.a ≠ .product ∧ w.b ≠ .product) ∧
    w.a ≠ .square ∧ w.b ≠ .square := by
  simp only [Apart, List.nodup_cons, List.mem_cons, List.not_mem_nil, or_false,
    not_or, not_false_eq_true, List.nodup_nil, and_true]
  tauto

/-! ## One bit -/

@[simp] theorem a_double : w.double.a = w.a := rfl

@[simp] theorem b_double : w.double.b = w.b := rfl

theorem holds_double_a (h : w.Apart) :
    w.double.holds w.a = w.holds w.a * (2 * w.holds w.b - w.holds w.a) := by
  obtain ⟨-, ⟨hap, hbp⟩, has, -⟩ := apart_iff.mp h
  -- The product is complete before a place of the pair is written to.
  simp [double, holds_put_of_ne, hap, hbp, hbp.symm, has]

theorem holds_double_b (h : w.Apart) :
    w.double.holds w.b = w.holds w.a * w.holds w.a + w.holds w.b * w.holds w.b := by
  obtain ⟨hab, ⟨hap, hbp⟩, has, hbs⟩ := apart_iff.mp h
  -- The square of the second number is put aside before its place is written to, and the first
  -- number is still there.
  simp [double, holds_put_of_ne, hab.symm, hap, hbp, has, hbs.symm]

@[simp] theorem a_next : w.next.a = w.b := rfl

@[simp] theorem b_next : w.next.b = w.a := rfl

theorem holds_next_a (h : w.Apart) : w.next.holds w.b = w.holds w.b :=
  holds_put_of_ne (apart_iff.mp h).1.symm

theorem holds_next_b : w.next.holds w.a = w.holds w.a + w.holds w.b := holds_put_self

/-- The workspace holds the pair of `k`. -/
structure HoldsPair (k : ℕ) (w : Workspace) : Prop where
  apart : w.Apart
  first : w.holds w.a = fib k
  second : w.holds w.b = fib (k + 1)

theorem HoldsPair.start : HoldsPair 0 start where
  apart := show [Place.left, .right, .product, .square].Nodup by decide
  first := rfl
  second := rfl

theorem fib_two_mul_cast (k : ℕ) : (fib (2 * k) : ℤ) = fib k * (2 * fib (k + 1) - fib k) := by
  -- The difference is never cut off at zero.
  have hle : fib k ≤ 2 * fib (k + 1) := Nat.fib_le_fib_succ.trans (Nat.le_mul_of_pos_left _ two_pos)
  rw [Nat.fib_two_mul, Nat.cast_mul, Nat.cast_sub hle, Nat.cast_mul, Nat.cast_ofNat]

theorem fib_two_mul_add_one_cast (k : ℕ) :
    (fib (2 * k + 1) : ℤ) = fib k * fib k + fib (k + 1) * fib (k + 1) := by
  rw [Nat.fib_two_mul_add_one]
  push_cast
  ring

theorem HoldsPair.double (h : HoldsPair k w) : HoldsPair (2 * k) w.double where
  apart := h.apart
  first := by rw [a_double, holds_double_a h.apart, h.first, h.second, fib_two_mul_cast]
  second := by rw [b_double, holds_double_b h.apart, h.first, h.second, fib_two_mul_add_one_cast]

theorem HoldsPair.next (h : HoldsPair k w) : HoldsPair (k + 1) w.next where
  apart := by
    have hapart := apart_iff.mp h.apart
    rw [apart_iff, a_next, b_next]
    tauto
  first := by rw [a_next, holds_next_a h.apart, h.second]
  second := by rw [b_next, holds_next_b, h.first, h.second, Nat.fib_add_two, Nat.cast_add]

/-- **One bit** is put behind those that were read before. -/
theorem HoldsPair.round (h : HoldsPair k w) (bit : Bool) :
    HoldsPair (2 * k + bit.toNat) (w.round bit) := by
  cases bit with
  | false => exact h.double
  | true => exact h.double.next

/-! ## All bits -/

/-- The workspaces that are passed through while the bits of `n` are read, with the number of bits
still to come. -/
inductive RoundReaches (n : ℕ) : ℕ → Workspace → Prop
  | start : RoundReaches n 64 start
  | next {bit : ℕ} {w : Workspace} : RoundReaches n (bit + 1) w →
      RoundReaches n bit (w.round (n.testBit bit))

theorem RoundReaches.rounds {bits : ℕ} (h : RoundReaches n bits w) :
    RoundReaches n 0 (w.rounds n bits) := by
  induction bits generalizing w with
  | zero => exact h
  | succ bit ih => exact ih h.next

theorem shiftRight_eq_two_mul (n bit : ℕ) :
    n >>> bit = 2 * (n >>> (bit + 1)) + (n.testBit bit).toNat := by
  rw [Nat.shiftRight_succ, Nat.testBit_eq_decide_div_mod_eq, Nat.shiftRight_eq_div_pow]
  have hmod := Nat.mod_two_eq_zero_or_one (n / 2 ^ bit)
  rcases hmod with h | h <;> simp [h] <;> omega

/-- **On the way** the workspace holds the pair of the number that the bits read so far spell. -/
theorem RoundReaches.holdsPair (hn : n < 2 ^ 64) (h : RoundReaches n bit w) :
    HoldsPair (n >>> bit) w := by
  induction h with
  | start =>
    rw [Nat.shiftRight_eq_div_pow, Nat.div_eq_of_lt hn]
    exact .start
  | @next bit w _ ih =>
    rw [shiftRight_eq_two_mul]
    exact ih.round (n.testBit bit)

end Workspace

open Workspace

theorem exactPair_eq (n : UInt64) : exactPair n = ((fib n.toNat : ℤ), (fib (n.toNat + 1) : ℤ)) := by
  have h := (RoundReaches.start (n := n.toNat)).rounds.holdsPair n.toNat_lt
  exact Prod.ext h.first h.second

/-- **Doubling in place gives the exact pair** of every word. After each bit the pair and what is
computed on the way lie in four places, and the pair is that of the bits read so far. -/
theorem exactPair_exact (n : UInt64) :
    exactPair n = ((fib n.toNat : ℤ), (fib (n.toNat + 1) : ℤ)) ∧ exact n = fib n.toNat ∧
    ∀ bit w, RoundReaches n.toNat bit w →
      [w.a, w.b, .product, .square].Nodup ∧ w.holds w.a = fib (n.toNat >>> bit) ∧
        w.holds w.b = fib (n.toNat >>> bit + 1) := by
  refine ⟨exactPair_eq n, ?_, ?_⟩
  · rw [exact, exactPair_eq]
  · intro bit w h
    have hpair := h.holdsPair n.toNat_lt
    exact ⟨hpair.apart, hpair.first, hpair.second⟩

/-- The greatest word after its first two bits: the places of the pair have changed their parts
twice. -/
theorem exactPair_exact_of_greatest :
    RoundReaches (0xffffffffffffffff : UInt64).toNat 62 ((start.round true).round true) ∧
      ((start.round true).round true).holds ((start.round true).round true).a = 2 := by
  have h : RoundReaches (0xffffffffffffffff : UInt64).toNat 62 ((start.round true).round true) :=
    .next (.next .start)
  exact ⟨h, ((exactPair_exact 0xffffffffffffffff).2.2 62 _ h).2.1⟩

end Stopwatch.Fibonacci
