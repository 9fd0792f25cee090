/-!
# Integer square roots

`isqrt` starts from the floating-point square root and corrects it in 64-bit words. The correction
does not rely on the estimate: `rootFrom` takes any starting value, caps it at the greatest root of
a 64-bit number, goes down while the square is too large and then up while the next square still
fits.

The way down ends because the candidate decreases, the way up because it stays below the cap.
-/

namespace Stopwatch

namespace Prime

/-- The greatest root of a 64-bit number. -/
def maxRoot : UInt64 := 0xffffffff

/-- A square above some number is not zero, so its root can be lowered without a wrap. -/
theorem one_le_of_lt_mul_self {n r : UInt64} (h : n < r * r) : 1 ≤ r := by
  have h0 := UInt64.lt_iff_toNat_lt.mp h
  rw [UInt64.le_iff_toNat_le, UInt64.toNat_one]
  rcases Nat.eq_zero_or_pos r.toNat with hr | hr
  · rw [UInt64.toNat_mul, hr] at h0
    omega
  · exact hr

/-- The first `r` on the way down whose square does not exceed `n`. -/
def lowerRoot (n r : UInt64) : UInt64 :=
  if h : n < r * r then lowerRoot n (r - 1) else r
termination_by r.toNat
decreasing_by
  have h1 := one_le_of_lt_mul_self h
  have hpos := UInt64.le_iff_toNat_le.mp h1
  rw [UInt64.toNat_sub_of_le _ _ h1]
  simp at hpos ⊢
  omega

/-- The last `r` on the way up whose square does not exceed `n`, never past the cap. -/
def raiseRoot (n r : UInt64) : UInt64 :=
  if h : r < maxRoot ∧ (r + 1) * (r + 1) ≤ n then raiseRoot n (r + 1) else r
termination_by maxRoot.toNat - r.toNat
decreasing_by
  have h1 := UInt64.lt_iff_toNat_lt.mp h.1
  have hm : maxRoot.toNat = 4294967295 := rfl
  have h2 : (r + 1).toNat = r.toNat + 1 := by
    rw [UInt64.toNat_add]
    simp
    omega
  omega

theorem lowerRoot_le (n r : UInt64) : lowerRoot n r ≤ r := by
  fun_induction lowerRoot n r with
  | case1 r h ih =>
    rw [UInt64.le_iff_toNat_le, UInt64.toNat_sub_of_le _ _ (one_le_of_lt_mul_self h)] at ih
    rw [UInt64.le_iff_toNat_le]
    exact Nat.le_trans ih (Nat.sub_le _ _)
  | case2 r h => exact UInt64.le_refl r

theorem raiseRoot_le (n r : UInt64) (hr : r ≤ maxRoot) : raiseRoot n r ≤ maxRoot := by
  fun_induction raiseRoot n r with
  | case1 r h ih =>
    refine ih ?_
    have h1 := UInt64.lt_iff_toNat_lt.mp h.1
    have hm : maxRoot.toNat = 4294967295 := rfl
    rw [UInt64.le_iff_toNat_le, UInt64.toNat_add, UInt64.toNat_one]
    omega
  | case2 r h => exact hr

/-- An estimate, or the greatest root if it is above that. -/
def capped (estimate : UInt64) : UInt64 := if maxRoot < estimate then maxRoot else estimate

theorem capped_le (estimate : UInt64) : capped estimate ≤ maxRoot := by
  unfold capped
  split
  · exact UInt64.le_refl _
  · next h => exact UInt64.not_lt.mp h

/-- The root of `n` found from a starting estimate. -/
def rootFrom (estimate n : UInt64) : UInt64 := raiseRoot n (lowerRoot n (capped estimate))

theorem rootFrom_le (estimate n : UInt64) : rootFrom estimate n ≤ maxRoot :=
  raiseRoot_le n _ (UInt64.le_trans (lowerRoot_le n _) (capped_le estimate))

/-- The greatest `r` with `r * r ≤ n`. -/
def isqrt (n : UInt64) : UInt64 := rootFrom n.toFloat.sqrt.toUInt64 n

theorem isqrt_le (n : UInt64) : isqrt n ≤ maxRoot := rootFrom_le _ n

end Prime

end Stopwatch
