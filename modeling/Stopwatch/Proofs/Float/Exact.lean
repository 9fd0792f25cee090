import Stopwatch.Proofs.Float.Arithmetic

/-!
# Operations that do not round

Where the exact result of an operation is on the grid, it is the result: the difference of equal
numbers is zero, a zero changes nothing when it is added or subtracted, and it stays a zero when it
is multiplied or divided, or its root is taken.

Floats that compare equal are the same float, unless they are the two zeros (`eq_of_value_eq`).
-/

open Float.Model Float.Model.UnpackedFloat

namespace Stopwatch.Rounding

variable {x y : Float} {q : ℚ}

/-! ## The same float -/

theorem eq_of_toBits_eq (h : x.toBits = y.toBits) : x = y := by
  obtain ⟨bits, hbits⟩ := x
  obtain ⟨others, hothers⟩ := y
  obtain rfl : bits = others := h
  rfl

theorem eq_of_unpack_eq (h : x.toModel.unpack = y.toModel.unpack) : x = y := by
  have hsame := (unpack_inj_of_valid x.toModel.valid y.toModel.valid).mp h
  exact eq_of_toBits_eq (UInt64.toBitVec_inj.mp hsame)

/-- **Numbers of one value are one float, but for the zeros.** -/
theorem eq_of_value_eq (hx : x.isNaN = false) (hy : y.isNaN = false)
    (hxz : x ≠ -0.0) (hyz : y ≠ -0.0) (h : value x = value y) : x = y := by
  have hminus : (-0.0 : Float).toModel.unpack = .zero .negative := rfl
  have hbeq : x.toModel.unpack.beq y.toModel.unpack = true := (beq_iff hx hy).mpr h
  obtain ⟨-, -, hsame | ⟨-, hzero⟩ | ⟨hzero, -⟩⟩ := (beq_iff_ne_notANumber_and_eq _ _).mp hbeq
  · exact eq_of_unpack_eq hsame
  · exact absurd (eq_of_unpack_eq (hzero.trans hminus.symm)) hyz
  · exact absurd (eq_of_unpack_eq (hzero.trans hminus.symm)) hxz

/-! ## Exact results -/

/-- The float stands for the number, which is finite. -/
structure Exactly (q : ℚ) (x : Float) : Prop where
  isFinite : x.isFinite = true
  value_eq : value x = q

theorem Exactly.isNumber (h : Exactly q x) : x.isNaN = false := (isFinite_iff.mp h.isFinite).1

theorem Exactly.onGrid (h : Exactly q x) : OnGrid q := h.value_eq ▸ onGrid_value h.isFinite

theorem Rounds.exactly (h : Rounds q x) (hq : OnGrid q) : Exactly q x :=
  ⟨(h.exact hq).1, (h.exact hq).2⟩

theorem exactly_zero : Exactly 0 0.0 := ⟨rfl, value_zero⟩

theorem Exactly.beq (hx : Exactly q x) (hy : Exactly q y) : (x == y) = true :=
  (beq_iff hx.isNumber hy.isNumber).mpr (hx.value_eq.trans hy.value_eq.symm)

theorem exactly_sub_self (hx : Exactly q x) (hy : Exactly q y) : Exactly 0 (x - y) := by
  have h := rounds_sub hx.isFinite hy.isFinite
  rw [hx.value_eq, hy.value_eq, sub_self] at h
  exact h.exactly onGrid_zero

theorem exactly_sub_zero (hx : Exactly q x) (hy : Exactly 0 y) : Exactly q (x - y) := by
  have h := rounds_sub hx.isFinite hy.isFinite
  rw [hx.value_eq, hy.value_eq, sub_zero] at h
  exact h.exactly hx.onGrid

theorem exactly_add_zero (hx : Exactly q x) (hy : Exactly 0 y) : Exactly q (x + y) := by
  have h := rounds_add hx.isFinite hy.isFinite
  rw [hx.value_eq, hy.value_eq, add_zero] at h
  exact h.exactly hx.onGrid

theorem exactly_zero_mul (hx : Exactly 0 x) (hy : y.isFinite = true) : Exactly 0 (x * y) := by
  have h := rounds_mul hx.isFinite hy
  rw [hx.value_eq, zero_mul] at h
  exact h.exactly onGrid_zero

theorem exactly_mul_zero (hx : x.isFinite = true) (hy : Exactly 0 y) : Exactly 0 (x * y) := by
  have h := rounds_mul hx hy.isFinite
  rw [hy.value_eq, mul_zero] at h
  exact h.exactly onGrid_zero

/-- A zero divided by any other number is zero, also by an infinite one. -/
theorem exactly_zero_div (hx : Exactly 0 x) (hy : y.isNaN = false) (hne : value y ≠ 0) :
    Exactly 0 (x / y) := by
  by_cases hfinite : y.isFinite = true
  · have h := rounds_div hx.isFinite hfinite hne
    rw [hx.value_eq, zero_div] at h
    exact h.exactly onGrid_zero
  · exact (rounds_div_of_not_finite hx.isFinite hy hfinite).exactly onGrid_zero

/-- The root of a zero is this zero. -/
theorem exactly_sqrt_zero (hx : Exactly 0 x) : Exactly 0 x.sqrt := by
  rcases finite_cases hx.isFinite with ⟨s, hu, -⟩ | ⟨s, m, e, p, -, hv⟩
  · have hsqrt : x.sqrt = Float.ofModel
      (Float.Model.pack (UnpackedFloat.sqrt .binary64 x.toModel.unpack)) := rfl
    rw [hsqrt, hu]
    exact (rounds_zero s).exactly onGrid_zero
  · have hpos := mul_zpow_pos p e
    rw [hx.value_eq] at hv
    cases s <;> simp only [signed] at hv <;> linarith

end Stopwatch.Rounding
