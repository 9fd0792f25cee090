import Mathlib.Data.Nat.Sqrt
import Stopwatch.Prime.Root

/-!
# The corrected square root is exact

`toNat_isqrt` says that `isqrt` is the square root over the natural numbers, up to the greatest
word. The estimate from floating point plays no part: `toNat_rootFrom` holds for every starting
value.

Up to `maxRoot` no square wraps, and that is what both loops stay below. The way down ends at a
candidate whose square fits, and the way up keeps this until the next square does not fit or the cap
is reached, whose next square is beyond every word.

`Correction` is a loop in words, wrapping included, with no more said about its end than that it
does not go on there. So it is of these loops, not of the functions, that `root_exact` says that
they come to an end and that no product wraps on the way.
-/

namespace Stopwatch.Prime

variable {n r first low : UInt64}

/-! ## Squares that do not wrap -/

@[simp] theorem toNat_maxRoot : maxRoot.toNat = 4294967295 := rfl

theorem toNat_mul_self (hr : r ≤ maxRoot) : (r * r).toNat = r.toNat * r.toNat := by
  have h := UInt64.le_iff_toNat_le.mp hr
  rw [toNat_maxRoot] at h
  rw [UInt64.toNat_mul]
  refine Nat.mod_eq_of_lt ?_
  calc r.toNat * r.toNat ≤ 4294967295 * 4294967295 := Nat.mul_le_mul h h
    _ < 2 ^ 64 := by decide

theorem toNat_add_one (hr : r < maxRoot) : (r + 1).toNat = r.toNat + 1 := by
  have h := UInt64.lt_iff_toNat_lt.mp hr
  rw [toNat_maxRoot] at h
  rw [UInt64.toNat_add, UInt64.toNat_one]
  exact Nat.mod_eq_of_lt (by omega)

theorem add_one_le (hr : r < maxRoot) : r + 1 ≤ maxRoot := by
  have h := UInt64.lt_iff_toNat_lt.mp hr
  rw [UInt64.le_iff_toNat_le, toNat_add_one hr]
  exact h

theorem sub_one_le (h : n < r * r) (hr : r ≤ maxRoot) : r - 1 ≤ maxRoot := by
  refine UInt64.le_trans ?_ hr
  rw [UInt64.le_iff_toNat_le, UInt64.toNat_sub_of_le _ _ (one_le_of_lt_mul_self h)]
  exact Nat.sub_le _ _

/-- Every word is below the square after the greatest root. -/
theorem lt_maxRoot_succ_sq (n : UInt64) : n.toNat < (maxRoot.toNat + 1) * (maxRoot.toNat + 1) := by
  have h := n.toNat_lt
  rw [toNat_maxRoot]
  omega

/-! ## The two corrections -/

/-- The way down ends at a square that fits. -/
theorem lowerRoot_sq_le (hr : r ≤ maxRoot) :
    (lowerRoot n r).toNat * (lowerRoot n r).toNat ≤ n.toNat := by
  fun_induction lowerRoot n r with
  | case1 r h ih => exact ih (sub_one_le h hr)
  | case2 r h =>
    rw [← toNat_mul_self hr]
    exact UInt64.le_iff_toNat_le.mp (UInt64.not_lt.mp h)

/-- The way up keeps a square that fits, and ends where the next one does not. -/
theorem raiseRoot_sq (hr : r ≤ maxRoot) (hn : r.toNat * r.toNat ≤ n.toNat) :
    (raiseRoot n r).toNat * (raiseRoot n r).toNat ≤ n.toNat ∧
      n.toNat < ((raiseRoot n r).toNat + 1) * ((raiseRoot n r).toNat + 1) := by
  fun_induction raiseRoot n r with
  | case1 r h ih =>
    have hle := add_one_le h.1
    refine ih hle ?_
    rw [← toNat_mul_self hle]
    exact UInt64.le_iff_toNat_le.mp h.2
  | case2 r h =>
    refine ⟨hn, ?_⟩
    by_cases hlt : r < maxRoot
    · have h2 : ¬ (r + 1) * (r + 1) ≤ n := fun hc => h ⟨hlt, hc⟩
      rw [UInt64.le_iff_toNat_le, toNat_mul_self (add_one_le hlt), toNat_add_one hlt] at h2
      exact Nat.lt_of_not_le h2
    · -- At the cap the guard says nothing about the next square, which is beyond every word.
      have he : r = maxRoot := UInt64.le_antisymm hr (UInt64.not_lt.mp hlt)
      rw [he]
      exact lt_maxRoot_succ_sq n

/-! ## The root -/

/-- The root is exact whatever estimate it is found from. -/
theorem toNat_rootFrom (estimate n : UInt64) : (rootFrom estimate n).toNat = Nat.sqrt n.toNat := by
  have hcap := capped_le estimate
  have hlow := UInt64.le_trans (lowerRoot_le n _) hcap
  obtain ⟨h1, h2⟩ := raiseRoot_sq hlow (lowerRoot_sq_le hcap)
  exact Nat.eq_sqrt.mpr ⟨h1, h2⟩

theorem toNat_isqrt (n : UInt64) : (isqrt n).toNat = Nat.sqrt n.toNat := toNat_rootFrom _ n

theorem rootFrom_eq_isqrt (estimate n : UInt64) : rootFrom estimate n = isqrt n := by
  rw [← UInt64.toNat_inj, toNat_rootFrom, toNat_isqrt]

/-! ## The loops in words -/

/-- A loop over a candidate: whether it goes on, and with which word. -/
structure Correction where
  goesOn : UInt64 → Prop
  step : UInt64 → UInt64

/-- The way down goes on while the square is too large. -/
def lowering (n : UInt64) : Correction where
  goesOn r := n < r * r
  step r := r - 1

/-- The way up goes on while the next square still fits. It is not computed at the cap. -/
def raising (n : UInt64) : Correction where
  goesOn r := r < maxRoot ∧ (r + 1) * (r + 1) ≤ n
  step r := r + 1

namespace Correction

/-- The candidates that a loop passes through, from a first one on. -/
inductive Reaches (c : Correction) (first : UInt64) : UInt64 → Prop
  | start : Reaches c first first
  | next {r : UInt64} : Reaches c first r → c.goesOn r → Reaches c first (c.step r)

/-- The loop comes to its end, at the last candidate. -/
structure EndsAt (c : Correction) (first last : UInt64) : Prop where
  reaches : c.Reaches first last
  ends : ¬ c.goesOn last

end Correction

open Correction

theorem endsAt_lowerRoot (h : (lowering n).Reaches first r) :
    (lowering n).EndsAt first (lowerRoot n r) := by
  fun_induction lowerRoot n r with
  | case1 r hgt ih => exact ih (h.next hgt)
  | case2 r hle => exact ⟨h, hle⟩

theorem endsAt_raiseRoot (h : (raising n).Reaches first r) :
    (raising n).EndsAt first (raiseRoot n r) := by
  fun_induction raiseRoot n r with
  | case1 r hfits ih => exact ih (h.next hfits)
  | case2 r hnot => exact ⟨h, hnot⟩

theorem le_of_reaches_lowering (hfirst : first ≤ maxRoot) (h : (lowering n).Reaches first r) :
    r ≤ maxRoot := by
  induction h with
  | start => exact hfirst
  | next _ hgt ih => exact sub_one_le hgt ih

theorem le_of_reaches_raising (hfirst : first ≤ maxRoot) (h : (raising n).Reaches first r) :
    r ≤ maxRoot := by
  cases h with
  | start => exact hfirst
  | next _ hfits => exact add_one_le hfits.1

/-- **The loops do not undo each other**: what the way down has passed over does not fit. -/
theorem raiseRoot_of_reaches_lowering (h : (lowering n).Reaches first low) :
    low = first ∨ raiseRoot n low = low := by
  cases h with
  | start => exact .inl rfl
  | @next r _ hgt =>
    right
    have hback : (lowering n).step r + 1 = r := UInt64.sub_add_cancel r 1
    have hnot : ¬ (r * r ≤ n) := UInt64.not_le.mpr hgt
    rw [raiseRoot, hback, dif_neg (fun hfits => hnot hfits.2)]

/-- **The corrected root is exact from every estimate**, and so it is the one that is found from
floating point. Both loops come to an end, at most one of them moves, and neither passes the cap. Up
to there no square and no next square wraps, and no candidate does when it is lowered or raised. -/
theorem root_exact (estimate n : UInt64) :
    (∃ low, (lowering n).EndsAt (capped estimate) low ∧
        (raising n).EndsAt low (rootFrom estimate n) ∧
      (low = capped estimate ∨ rootFrom estimate n = low) ∧
      (∀ r, (lowering n).Reaches (capped estimate) r →
        r ≤ maxRoot ∧ (r * r).toNat = r.toNat * r.toNat ∧
          (n < r * r → (r - 1).toNat + 1 = r.toNat)) ∧
      ∀ r, (raising n).Reaches low r →
        r ≤ maxRoot ∧ (r < maxRoot → (r + 1).toNat = r.toNat + 1 ∧
          ((r + 1) * (r + 1)).toNat = (r.toNat + 1) * (r.toNat + 1))) ∧
    (∀ root : ℕ, (rootFrom estimate n).toNat = root ↔
      root * root ≤ n.toNat ∧ n.toNat < (root + 1) * (root + 1)) ∧
    isqrt n = rootFrom estimate n := by
  have hcap := capped_le estimate
  have hstart : (lowering n).Reaches (capped estimate) (capped estimate) := .start
  have hdown := endsAt_lowerRoot hstart
  have hlow := le_of_reaches_lowering hcap hdown.reaches
  refine ⟨⟨_, hdown, endsAt_raiseRoot .start, raiseRoot_of_reaches_lowering hdown.reaches, ?_, ?_⟩,
    ?_, (rootFrom_eq_isqrt estimate n).symm⟩
  · intro r hr
    have hle := le_of_reaches_lowering hcap hr
    refine ⟨hle, toNat_mul_self hle, fun hgt => ?_⟩
    have hone := one_le_of_lt_mul_self hgt
    rw [UInt64.toNat_sub_of_le _ _ hone]
    exact Nat.sub_add_cancel (UInt64.le_iff_toNat_le.mp hone)
  · intro r hr
    refine ⟨le_of_reaches_raising hlow hr, fun hlt => ⟨toNat_add_one hlt, ?_⟩⟩
    rw [toNat_mul_self (add_one_le hlt), toNat_add_one hlt]
  · intro root
    rw [toNat_rootFrom, eq_comm]
    exact Nat.eq_sqrt

/-- The number before the square of the greatest root, whose own root counts as the greatest in
floating point: the way down makes one step. -/
theorem root_exact_below_square :
    (lowering 0xfffffffe00000000).Reaches (capped 0x100000000) 0xfffffffe ∧
      (0xfffffffe * 0xfffffffe : UInt64).toNat = 4294967294 * 4294967294 ∧
      (rootFrom 0x100000000 0xfffffffe00000000).toNat = 4294967294 := by
  have hreaches : (lowering 0xfffffffe00000000).Reaches (capped 0x100000000) 0xfffffffe :=
    .next .start (show (0xfffffffe00000000 : UInt64) < capped 0x100000000 *
      capped 0x100000000 by decide)
  obtain ⟨⟨low, -, -, -, hdown, -⟩, hroot, -⟩ := root_exact 0x100000000 0xfffffffe00000000
  exact ⟨hreaches, (hdown _ hreaches).2.1, (hroot 4294967294).mpr ⟨by decide, by decide⟩⟩

end Stopwatch.Prime
