import Stopwatch.Decimal.Binary
import Stopwatch.Proofs.Float.Value

/-!
# Float arithmetic rounds exact results

`Rounds q x` says that the float `x` is the exact number `q` rounded. It is all that is known of the
operations here: sums, differences, products and quotients of finite floats, and floats made from
whole numbers, are their exact results rounded (`rounds_add`, `rounds_sub`, `rounds_mul`,
`rounds_div`, `rounds_ofInt64`, `rounds_toFloat`). Statements about a computation follow from bounds
on its exact results, since rounding never crosses a number of the grid.
-/

open Float.Model Float.Model.UnpackedFloat

namespace Stopwatch.Rounding

variable {q g : ℚ} {x y : Float} {s : Sign} {m n : ℕ} {e t : ℤ}

/-- The float `x` is `q` rounded: a number of the grid on one side of `q` is on the same side of
`x`. -/
structure Rounds (q : ℚ) (x : Float) : Prop where
  isNumber : x.isNaN = false
  le_of_onGrid : ∀ {g}, OnGrid g → q ≤ g → value x ≤ g
  ge_of_onGrid : ∀ {g}, OnGrid g → g ≤ q → g ≤ value x

theorem rounds_value (h : x.isNaN = false) : Rounds (value x) x := ⟨h, fun _ => id, fun _ => id⟩

/-- What lies between two numbers of the grid is finite once it is rounded, and stays between them.
-/
theorem Rounds.between {a b : ℚ} (h : Rounds q x) (ha : OnGrid a) (hb : OnGrid b)
    (hqa : a ≤ q) (hqb : q ≤ b) :
    x.isFinite = true ∧ a ≤ value x ∧ value x ≤ b := by
  have h1 := h.ge_of_onGrid ha hqa
  have h2 := h.le_of_onGrid hb hqb
  have h3 := (abs_lt.mp ha.1).1
  have h4 := (abs_lt.mp hb.1).2
  exact ⟨isFinite_iff.mpr ⟨h.isNumber, abs_lt.mpr ⟨by linarith, by linarith⟩⟩, h1, h2⟩

/-- A number of the grid is not changed by rounding. -/
theorem Rounds.exact (h : Rounds q x) (hq : OnGrid q) : x.isFinite = true ∧ value x = q := by
  obtain ⟨h1, h2, h3⟩ := h.between hq hq le_rfl le_rfl
  exact ⟨h1, le_antisymm h3 h2⟩

theorem onGrid_int {k : ℤ} (h : |k| ≤ 2 ^ 53) : OnGrid k := by
  refine ⟨?_, k, 0, h, by decide, by simp⟩
  have h1 : |(k : ℚ)| ≤ 2 ^ 53 := by exact_mod_cast h
  exact lt_of_le_of_lt h1 (pow_lt_pow_right₀ (by norm_num) (by decide))

theorem onGrid_zero : OnGrid 0 := by
  have := onGrid_int (k := 0) (by decide)
  simpa using this

theorem onGrid_one : OnGrid 1 := by
  have := onGrid_int (k := 1) (by decide)
  simpa using this

theorem onGrid_two_zpow (h1 : -1074 ≤ e) (h2 : (2 : ℚ) ^ e < beyond) : OnGrid (2 ^ e) := by
  refine ⟨?_, 1, e, by norm_num, h1, by simp⟩
  rwa [abs_of_pos (two_zpow_pos e)]

theorem onGrid_two_pow {k : ℕ} (h : k < 1024) : OnGrid (2 ^ k) := by
  have := onGrid_two_zpow (e := k) (by omega)
    (by rw [zpow_natCast, beyond]; exact pow_lt_pow_right₀ (by norm_num) h)
  rwa [zpow_natCast] at this

theorem onGrid_two_zpow_of_nonpos (h1 : -1074 ≤ e) (h2 : e ≤ 0) : OnGrid (2 ^ e) :=
  onGrid_two_zpow h1 ((zpow_le_one_of_nonpos₀ one_le_two h2).trans_lt
    (one_lt_pow₀ one_lt_two (by decide)))

theorem Rounds.nonneg (h : Rounds q x) (hq : 0 ≤ q) : 0 ≤ value x := h.ge_of_onGrid onGrid_zero hq

theorem Rounds.nonpos (h : Rounds q x) (hq : q ≤ 0) : value x ≤ 0 := h.le_of_onGrid onGrid_zero hq

theorem abs_value_le (x : Float) : |value x| ≤ beyond := by
  by_cases h : x.isFinite = true
  · exact (isFinite_iff.mp h).2.le
  · replace h : ¬ x.toModel.unpack.isFinite = true := h
    show |worth x.toModel.unpack| ≤ beyond
    cases hu : x.toModel.unpack with
    | notANumber => simpa [worth] using beyond_pos.le
    | infinity s => cases s <;> simp [worth, signed, abs_of_pos beyond_pos]
    | zero s => simpa [worth] using beyond_pos.le
    | finite s m e p => simp [hu, UnpackedFloat.isFinite] at h

/-! ## Packing -/

theorem signed_neg (s : Sign) (q : ℚ) : signed (-s) q = -signed s q := by
  cases s with
  | negative => exact (neg_neg q).symm
  | positive => rfl

/-- A mantissa of 53 bits that is packed comes apart into itself, or into an infinity if it is out
of reach. -/
theorem unpack_pack_finite (s : Sign) (p : 0 < m) (h1 : m < 2 ^ 53) (h2 : -1074 ≤ e)
    (h4 : -1074 < e → 2 ^ 52 ≤ m) :
    (m : ℚ) * 2 ^ e < beyond ∧ (Float.Model.pack (.finite s m e p)).unpack = .finite s m e p ∨
      beyond ≤ (m : ℚ) * 2 ^ e ∧ (Float.Model.pack (.finite s m e p)).unpack = .infinity s := by
  by_cases h3 : e ≤ 971
  · exact .inl ⟨mul_zpow_lt h1 h3, unpack_pack ⟨h1, h2, h3, h4⟩⟩
  · refine .inr ⟨?_, ?_⟩
    · have hm : (2 : ℚ) ^ 52 ≤ m := by exact_mod_cast h4 (by omega)
      calc beyond = 2 ^ 52 * 2 ^ (972 : ℤ) := by
            rw [show (972 : ℤ) = ((972 : ℕ) : ℤ) from rfl, zpow_natCast, ← pow_add, beyond]
        _ ≤ 2 ^ 52 * 2 ^ e :=
          mul_le_mul_of_nonneg_left (zpow_le_zpow_right₀ (by norm_num) (by omega)) (by positivity)
        _ ≤ m * 2 ^ e := mul_le_mul_of_nonneg_right hm (two_zpow_pos e).le
    · have h : (Float.Model.pack (.infinity s)).unpack = .infinity s := unpack_pack trivial
      rw [← h]
      show UnpackedFloat.unpack .binary64 (UnpackedFloat.pack .binary64 (.finite s m e p)) = _
      rw [pack_finite_of_lt s p (not_le.mp h3)]
      rfl

/-- What a rounded mantissa is packed to: a number of the same sign and, within reach, the same
value. -/
theorem unpack_pack_settled (s : Sign) (h : RoundsTo q n t) :
    n = 0 ∧ (Float.Model.pack (settled s n t)).unpack = .zero s ∨
      (∃ m e p, (Float.Model.pack (settled s n t)).unpack = .finite s m e p ∧
          (m : ℚ) * 2 ^ e = n * 2 ^ t ∧
        (n : ℚ) * 2 ^ t < beyond) ∨
      (Float.Model.pack (settled s n t)).unpack = .infinity s ∧ beyond ≤ (n : ℚ) * 2 ^ t := by
  have hfull : -1074 < t → 2 ^ 52 ≤ n := by
    intro ht
    have := h.ge_of_ge (2 ^ 52) (by push_cast; exact h.full ht)
    exact_mod_cast this
  have hleast := h.least
  unfold settled
  split
  · next h0 => exact .inl ⟨h0, unpack_pack trivial⟩
  · next h0 =>
    right
    split
    · next hlt =>
      have p := Nat.pos_of_ne_zero h0
      rcases unpack_pack_finite s p hlt hleast hfull with ⟨h1, h2⟩ | ⟨h1, h2⟩
      · exact .inl ⟨n, t, p, h2, rfl, h1⟩
      · exact .inr ⟨h2, h1⟩
    · next hge =>
      -- The mantissa was rounded up to 54 bits, and is a power of two.
      have hn : n = 2 ^ 53 := le_antisymm h.size_le (not_lt.mp hge)
      have heq : ((2 ^ 52 : ℕ) : ℚ) * 2 ^ (t + 1) = n * 2 ^ t := by
        rw [hn, zpow_add_one₀ two_ne_zero]
        push_cast
        ring
      rcases unpack_pack_finite s (m := 2 ^ 52) (e := t + 1) (by decide) (by decide) (by omega)
        (fun _ => le_rfl) with ⟨h1, h2⟩ | ⟨h1, h2⟩
      · exact .inl ⟨2 ^ 52, t + 1, by decide, h2, heq, heq ▸ h1⟩
      · exact .inr ⟨h2, heq ▸ h1⟩

theorem value_pack_settled (s : Sign) (h : RoundsTo q n t) :
    (Float.ofModel (Float.Model.pack (settled s n t))).isNaN = false ∧
      value (Float.ofModel (Float.Model.pack (settled s n t))) =
        signed s (min (n * 2 ^ t) beyond) := by
  show (Float.Model.pack (settled s n t)).unpack.isNaN = false ∧
    worth (Float.Model.pack (settled s n t)).unpack = _
  rcases unpack_pack_settled s h with ⟨rfl, hu⟩ | ⟨m, e, p, hu, heq, hlt⟩ | ⟨hu, hge⟩
  · rw [hu, Nat.cast_zero, zero_mul, min_eq_left beyond_pos.le]
    refine ⟨rfl, ?_⟩
    cases s with
    | negative => exact neg_zero.symm
    | positive => rfl
  · rw [hu, ← heq, min_eq_left (heq ▸ hlt).le]
    exact ⟨rfl, rfl⟩
  · rw [hu, min_eq_right hge]
    exact ⟨rfl, rfl⟩

/-- What rounding by shifts leaves behind is the exact number rounded. -/
theorem rounds_settled (s : Sign) (h : RoundsTo q n t) :
    Rounds (signed s q) (Float.ofModel (Float.Model.pack (settled s n t))) := by
  obtain ⟨hnum, hval⟩ := value_pack_settled s h
  -- A magnitude on the grid is on the same side of `q`, of the mantissa and of the infinity.
  have hle : ∀ {g : ℚ}, OnGrid g → q ≤ g → min ((n : ℚ) * 2 ^ t) beyond ≤ g :=
    fun hg hq => (min_le_left _ _).trans (h.le_of_onGrid hg hq)
  have hge : ∀ {g : ℚ}, OnGrid g → g ≤ q → g ≤ min ((n : ℚ) * 2 ^ t) beyond :=
    fun hg hq => le_min (h.ge_of_onGrid hg hq) ((le_abs_self _).trans hg.1.le)
  refine ⟨hnum, ?_, ?_⟩
  · intro g hg hq
    rw [hval]
    cases s with
    | positive => exact hle hg hq
    | negative => exact neg_le.mp (hge hg.neg (neg_le.mp hq))
  · intro g hg hq
    rw [hval]
    cases s with
    | positive => exact hge hg hq
    | negative => exact le_neg.mp (hle hg.neg (le_neg.mp hq))

theorem rounds_zero (s : Sign) : Rounds 0 (Float.ofModel (Float.Model.pack (.zero s))) := by
  have hval : value (Float.ofModel (Float.Model.pack (.zero s))) = 0 := by cases s <;> rfl
  have hnum : (Float.ofModel (Float.Model.pack (.zero s))).isNaN = false := by cases s <;> rfl
  rw [← hval]
  exact rounds_value hnum

theorem rounds_normalize (k e : ℤ) (s : Sign) :
    Rounds (k * 2 ^ e)
      (Float.ofModel (Float.Model.pack (UnpackedFloat.normalize .binary64 k e s))) := by
  unfold UnpackedFloat.normalize
  rcases lt_trichotomy k 0 with hk | rfl | hk
  · rw [compare_lt_iff_lt.mpr hk]
    obtain ⟨n, t, h, heq⟩ := round_eq .negative (m := (-k).toNat) (by omega) e
    have hcast : (((-k).toNat : ℕ) : ℚ) = -k := by
      exact_mod_cast Int.toNat_of_nonneg (by omega : 0 ≤ -k)
    have := rounds_settled .negative h
    rw [← heq, hcast, neg_mul] at this
    simpa [signed] using this
  · rw [compare_eq_iff_eq.mpr rfl, Int.cast_zero, zero_mul]
    exact rounds_zero s
  · rw [compare_gt_iff_gt.mpr hk]
    obtain ⟨n, t, h, heq⟩ := round_eq .positive (m := k.toNat) (by omega) e
    have hcast : ((k.toNat : ℕ) : ℚ) = k := by
      exact_mod_cast Int.toNat_of_nonneg (by omega : 0 ≤ k)
    have := rounds_settled .positive h
    rw [← heq, hcast] at this
    exact this

/-! ## The operations -/

/-- A finite float is a zero or a mantissa with a sign. -/
theorem finite_cases (h : x.isFinite = true) :
    (∃ s, x.toModel.unpack = .zero s ∧ value x = 0) ∨
      ∃ s m e p, x.toModel.unpack = .finite s m e p ∧ value x = signed s (m * 2 ^ e) := by
  replace h : x.toModel.unpack.isFinite = true := h
  show (∃ s, _ ∧ worth x.toModel.unpack = 0) ∨ ∃ s m e p, _ ∧ worth x.toModel.unpack = _
  cases hu : x.toModel.unpack with
  | notANumber => simp [hu, UnpackedFloat.isFinite] at h
  | infinity s => simp [hu, UnpackedFloat.isFinite] at h
  | zero s => exact .inl ⟨s, rfl, rfl⟩
  | finite s m e p => exact .inr ⟨s, m, e, p, rfl, rfl⟩

theorem rounds_pack_unpack (h : x.isNaN = false) :
    Rounds (value x) (Float.ofModel (Float.Model.pack x.toModel.unpack)) := by
  have hu : (Float.ofModel (Float.Model.pack x.toModel.unpack)).toModel.unpack = x.toModel.unpack :=
    unpack_pack (canonical_unpack _)
  have hval : value (Float.ofModel (Float.Model.pack x.toModel.unpack)) = value x := by
    rw [value, hu, value]
  have hnum : (Float.ofModel (Float.Model.pack x.toModel.unpack)).isNaN = false := by
    rw [← h]
    show UnpackedFloat.isNaN _ = UnpackedFloat.isNaN _
    rw [hu]
  rw [← hval]
  exact rounds_value hnum

/-- A mantissa that is brought to a smaller exponent stands for the same number. -/
theorem signed_decreaseExponent (s : Sign) (m : ℕ) (h : t ≤ e) :
    signed s (m * 2 ^ e) = ((s.apply (decreaseExponent m e t).1 : ℤ) : ℚ) * 2 ^ t := by
  have hk : ((e - t).toNat : ℤ) = e - t := Int.toNat_of_nonneg (by omega)
  have hshift := cast_shiftLeft m (e - t).toNat e
  rw [hk, sub_sub_cancel] at hshift
  show _ = ((s.apply ((m <<< (e - t).toNat : ℕ) : ℤ) : ℤ) : ℚ) * 2 ^ t
  cases s with
  | negative => simp only [signed, Sign.apply, Int.cast_neg, Int.cast_natCast, neg_mul, hshift]
  | positive => simp only [signed, Sign.apply, Int.cast_natCast, hshift]

theorem rounds_add (hx : x.isFinite = true) (hy : y.isFinite = true) :
    Rounds (value x + value y) (x + y) := by
  have hnx := (isFinite_iff.mp hx).1
  have hny := (isFinite_iff.mp hy).1
  have hadd : x + y = Float.ofModel (Float.Model.pack (UnpackedFloat.add .binary64 x.toModel.unpack
    y.toModel.unpack)) := rfl
  rcases finite_cases hx with ⟨s₁, hu₁, hv₁⟩ | ⟨s₁, m₁, e₁, p₁, hu₁, hv₁⟩
  · rcases finite_cases hy with ⟨s₂, hu₂, hv₂⟩ | ⟨s₂, m₂, e₂, p₂, hu₂, hv₂⟩
    · rw [hadd, hu₁, hu₂, hv₁, hv₂, add_zero]
      cases s₁ <;> cases s₂ <;> exact rounds_zero _
    · rw [hadd, hu₁, hu₂, UnpackedFloat.add, ← hu₂, hv₁, zero_add]
      · exact rounds_pack_unpack hny
      all_goals simp
  · rcases finite_cases hy with ⟨s₂, hu₂, hv₂⟩ | ⟨s₂, m₂, e₂, p₂, hu₂, hv₂⟩
    · rw [hadd, hu₁, hu₂, UnpackedFloat.add, ← hu₁, hv₂, add_zero]
      · exact rounds_pack_unpack hnx
      all_goals simp
    · -- Both mantissas are brought to the smaller exponent, where their sum is exact.
      rw [hadd, hu₁, hu₂, hv₁, hv₂, signed_decreaseExponent s₁ m₁ (min_le_left e₁ e₂),
        signed_decreaseExponent s₂ m₂ (min_le_right e₁ e₂), ← add_mul, ← Int.cast_add]
      exact rounds_normalize _ _ _

theorem unpack_neg (x : Float) : (-x).toModel.unpack = x.toModel.unpack.neg := by
  refine unpack_pack ?_
  have hcanon := canonical_unpack x.toModel
  cases hu : x.toModel.unpack with
  | finite s m e p =>
    rw [hu] at hcanon
    exact hcanon
  | _ => trivial

theorem isNaN_neg (x : Float) : (-x).isNaN = x.isNaN := by
  show (-x).toModel.unpack.isNaN = x.toModel.unpack.isNaN
  rw [unpack_neg]
  cases x.toModel.unpack <;> rfl

theorem value_neg (x : Float) : value (-x) = -value x := by
  rw [value, unpack_neg, value]
  cases x.toModel.unpack with
  | notANumber => exact neg_zero.symm
  | infinity s => exact signed_neg s _
  | zero s => exact neg_zero.symm
  | finite s m e p => exact signed_neg s _

theorem isFinite_neg (h : x.isFinite = true) : (-x).isFinite = true := by
  obtain ⟨h1, h2⟩ := isFinite_iff.mp h
  exact isFinite_iff.mpr ⟨(isNaN_neg x).trans h1, by rwa [value_neg, abs_neg]⟩

theorem Rounds.neg (h : Rounds q x) : Rounds (-q) (-x) := by
  refine ⟨(isNaN_neg x).trans h.isNumber, ?_, ?_⟩
  · intro g hg hq
    rw [value_neg]
    exact neg_le.mp (h.ge_of_onGrid hg.neg (neg_le.mp hq))
  · intro g hg hq
    rw [value_neg]
    exact le_neg.mp (h.le_of_onGrid hg.neg (le_neg.mp hq))

/-- A difference is the sum with the opposite. -/
theorem float_sub_eq (x y : Float) : x - y = x + -y := by
  have hsub : x - y = Float.ofModel (Float.Model.pack (UnpackedFloat.sub .binary64 x.toModel.unpack
    y.toModel.unpack)) := rfl
  have hadd : x + -y = Float.ofModel (Float.Model.pack (UnpackedFloat.add .binary64 x.toModel.unpack
    (-y).toModel.unpack)) := rfl
  rw [hsub, hadd, unpack_neg]
  congr 2
  cases x.toModel.unpack with
  | finite s₁ m₁ e₁ p₁ =>
    cases y.toModel.unpack with
    | finite s₂ m₂ e₂ p₂ =>
      simp only [UnpackedFloat.sub, UnpackedFloat.add, UnpackedFloat.neg]
      congr 1
      cases s₂ with
      | negative => exact Int.sub_neg _ _
      | positive => rfl
    | _ => rfl
  | _ => cases y.toModel.unpack <;> rfl

theorem rounds_sub (hx : x.isFinite = true) (hy : y.isFinite = true) :
    Rounds (value x - value y) (x - y) := by
  rw [float_sub_eq, sub_eq_add_neg, ← value_neg]
  exact rounds_add hx (isFinite_neg hy)

theorem signed_mul (s₁ s₂ : Sign) (p q : ℚ) :
    signed (s₁ * s₂) (p * q) = signed s₁ p * signed s₂ q := by
  cases s₁ <;> cases s₂
  · exact (neg_mul_neg p q).symm
  · exact (neg_mul p q).symm
  · exact (mul_neg p q).symm
  · rfl

theorem signed_div (s₁ s₂ : Sign) (p q : ℚ) :
    signed (s₁ / s₂) (p / q) = signed s₁ p / signed s₂ q := by
  cases s₁ <;> cases s₂
  · exact (neg_div_neg_eq p q).symm
  · exact (neg_div q p).symm
  · exact (div_neg p).symm
  · rfl

/-- The product of two mantissas has so many bits that it is only ever shifted to the right. -/
theorem mul_le_target {s₁ s₂ : Sign} {m₁ m₂ : ℕ} {e₁ e₂ : ℤ} {p₁ : 0 < m₁} {p₂ : 0 < m₂}
    (h₁ : Canonical (.finite s₁ m₁ e₁ p₁)) (h₂ : Canonical (.finite s₂ m₂ e₂ p₂)) :
    e₁ + e₂ ≤ target (m₁ * m₂) (e₁ + e₂) := by
  obtain ⟨-, hlo₁, -, hfull₁⟩ := h₁
  obtain ⟨-, hlo₂, -, hfull₂⟩ := h₂
  have hpos : 0 < m₁ * m₂ := Nat.mul_pos p₁ p₂
  by_cases hbits : 2 ^ 52 ≤ m₁ * m₂
  · have hlog : 52 ≤ (m₁ * m₂).log2 := (Nat.le_log2 hpos.ne').mpr hbits
    refine le_trans ?_ (le_max_left _ _)
    omega
  · -- Neither mantissa has its 53 bits, so both exponents are the least one.
    have h1 : m₁ ≤ m₁ * m₂ := Nat.le_mul_of_pos_right m₁ p₂
    have h2 : m₂ ≤ m₁ * m₂ := Nat.le_mul_of_pos_left m₂ p₁
    have he₁ : e₁ = -1074 := by
      by_contra hne
      have := hfull₁ (by omega)
      omega
    have he₂ : e₂ = -1074 := by
      by_contra hne
      have := hfull₂ (by omega)
      omega
    refine le_trans ?_ (neg_le_target _ _)
    omega

theorem rounds_mul_finite {s₁ s₂ : Sign} {m₁ m₂ : ℕ} {e₁ e₂ : ℤ}
    (h : e₁ + e₂ ≤ target (m₁ * m₂) (e₁ + e₂)) :
    Rounds (signed s₁ (m₁ * 2 ^ e₁) * signed s₂ (m₂ * 2 ^ e₂))
      (Float.ofModel (Float.Model.pack
        (roundWithAccuracy .binary64 (s₁ * s₂) (m₁ * m₂) (e₁ + e₂) .exact))) := by
  have hb : Brackets (m₁ * m₂) (isCut .exact) ((m₁ * m₂ : ℕ) : ℚ) := rfl
  obtain ⟨n, hn, heq⟩ := roundWithAccuracy_eq (s₁ * s₂) hb h
  have hq : ((m₁ * m₂ : ℕ) : ℚ) * 2 ^ (e₁ + e₂) = m₁ * 2 ^ e₁ * (m₂ * 2 ^ e₂) := by
    rw [Nat.cast_mul, zpow_add₀ two_ne_zero]
    ring
  rw [hq] at hn
  rw [← signed_mul, heq]
  exact rounds_settled _ hn

theorem rounds_mul (hx : x.isFinite = true) (hy : y.isFinite = true) :
    Rounds (value x * value y) (x * y) := by
  have hmul : x * y = Float.ofModel (Float.Model.pack (UnpackedFloat.mul .binary64 x.toModel.unpack
    y.toModel.unpack)) := rfl
  rcases finite_cases hx with ⟨s₁, hu₁, hv₁⟩ | ⟨s₁, m₁, e₁, p₁, hu₁, hv₁⟩
  · rw [hmul, hu₁, hv₁, zero_mul]
    rcases finite_cases hy with ⟨s₂, hu₂, -⟩ | ⟨s₂, m₂, e₂, p₂, hu₂, -⟩ <;> rw [hu₂] <;>
      exact rounds_zero (s₁ * s₂)
  · rcases finite_cases hy with ⟨s₂, hu₂, hv₂⟩ | ⟨s₂, m₂, e₂, p₂, hu₂, hv₂⟩
    · rw [hmul, hu₁, hu₂, hv₂, mul_zero]
      exact rounds_zero (s₁ * s₂)
    · rw [hmul, hu₁, hu₂, hv₁, hv₂]
      exact rounds_mul_finite (mul_le_target (hu₁ ▸ canonical_unpack _) (hu₂ ▸ canonical_unpack _))

theorem rounds_div (hx : x.isFinite = true) (hy : y.isFinite = true) (h0 : value y ≠ 0) :
    Rounds (value x / value y) (x / y) := by
  have hdiv : x / y = Float.ofModel (Float.Model.pack (UnpackedFloat.div .binary64 x.toModel.unpack
    y.toModel.unpack)) := rfl
  rcases finite_cases hy with ⟨s₂, hu₂, hv₂⟩ | ⟨s₂, m₂, e₂, p₂, hu₂, hv₂⟩
  · exact absurd hv₂ h0
  · rcases finite_cases hx with ⟨s₁, hu₁, hv₁⟩ | ⟨s₁, m₁, e₁, p₁, hu₁, hv₁⟩
    · rw [hdiv, hu₁, hu₂, hv₁, zero_div]
      exact rounds_zero (s₁ / s₂)
    · obtain ⟨n, t, hn, heq⟩ := div_eq (s₁ / s₂) p₁.ne' p₂.ne' e₁ e₂
      rw [hdiv, hu₁, hu₂, hv₁, hv₂, ← signed_div]
      have := rounds_settled (s₁ / s₂) hn
      rw [← heq] at this
      exact this

/-- A finite number divided by an infinite one is zero. -/
theorem rounds_div_of_not_finite (hx : x.isFinite = true) (hy : y.isNaN = false)
    (hinf : ¬ y.isFinite = true) :
    Rounds 0 (x / y) := by
  have hdiv : x / y = Float.ofModel (Float.Model.pack (UnpackedFloat.div .binary64 x.toModel.unpack
    y.toModel.unpack)) := rfl
  have hu : ∃ s, y.toModel.unpack = .infinity s := by
    replace hinf : ¬ y.toModel.unpack.isFinite = true := hinf
    have hnan := ne_notANumber hy
    cases hu : y.toModel.unpack with
    | notANumber => exact absurd hu hnan
    | infinity s => exact ⟨s, rfl⟩
    | zero s => simp [hu, UnpackedFloat.isFinite] at hinf
    | finite s m e p => simp [hu, UnpackedFloat.isFinite] at hinf
  obtain ⟨s₂, hu₂⟩ := hu
  rw [hdiv, hu₂]
  rcases finite_cases hx with ⟨s₁, hu₁, -⟩ | ⟨s₁, m₁, e₁, p₁, hu₁, -⟩ <;> rw [hu₁] <;>
    exact rounds_zero (s₁ / s₂)

/-! ## Whole numbers -/

theorem rounds_toFloat_word (n : UInt64) : Rounds n.toNat n.toFloat := by
  have := rounds_normalize n.toNat 0 .positive
  rwa [zpow_zero, mul_one, Int.cast_natCast] at this

theorem toNat_toUInt64_neg {i : Int64} (h : i.toInt < 0) :
    ((-i).toUInt64.toNat : ℤ) = -i.toInt := by
  have hint := BitVec.toInt_eq_toNat_cond i.toBitVec
  have hneg : (-i).toUInt64.toNat = (-i.toBitVec).toNat := rfl
  have hlt := i.toBitVec.isLt
  rw [BitVec.toNat_neg] at hneg
  rw [Int64.toInt_toBitVec] at hint
  split at hint <;> omega

theorem toNat_toUInt64 {i : Int64} (h : 0 ≤ i.toInt) : (i.toUInt64.toNat : ℤ) = i.toInt := by
  rw [Int64.toNat_toUInt64_of_le (Int64.le_iff_toInt_le.mpr h)]
  exact Int.toNat_of_nonneg h

theorem rounds_ofInt64 (i : Int64) : Rounds i.toInt (Binary.ofInt64 i) := by
  unfold Binary.ofInt64
  split
  · next h =>
    have := (rounds_toFloat_word (-i).toUInt64).neg
    rwa [← Int.cast_natCast, toNat_toUInt64_neg (Int64.lt_iff_toInt_lt.mp h),
      Int.cast_neg, neg_neg] at this
  · next h =>
    have hnonneg : 0 ≤ i.toInt := not_lt.mp fun hlt => h (Int64.lt_iff_toInt_lt.mpr hlt)
    have := rounds_toFloat_word i.toUInt64
    rwa [← Int.cast_natCast, toNat_toUInt64 hnonneg] at this

theorem onGrid_nat (h : n ≤ 2 ^ 53) : OnGrid n := by
  have := onGrid_int (k := n) (by rw [abs_of_nonneg (by omega)]; omega)
  rwa [Int.cast_natCast] at this

/-- The float made from a natural number is this number rounded. -/
theorem rounds_toFloat (n : ℕ) : Rounds n n.toFloat := by
  by_cases hn : n < 2 ^ 53
  · -- A number of 53 bits is made from a word, without rounding, and multiplied by one.
    have hone : value (Float.ofBits 0x3FF0000000000000) = 1 := by
      have hu : (Float.ofBits 0x3FF0000000000000).toModel.unpack =
        .finite .positive (2 ^ 52) (-52) (by decide) := rfl
      rw [value, hu, worth, signed]
      norm_num
    have hfin : (Float.ofBits 0x3FF0000000000000).isFinite = true := rfl
    have heq : n.toFloat = n.toUInt64.toFloat * Float.ofBits 0x3FF0000000000000 := by
      show Float.ofScientific n false 0 = _
      rw [Float.ofScientific, dif_pos ⟨hn, by decide⟩]
      rfl
    have hword := rounds_toFloat_word n.toUInt64
    have hcast : n.toUInt64.toNat = n := UInt64.toNat_ofNat_of_lt' (hn.trans (by decide))
    rw [hcast] at hword
    have hgrid := onGrid_nat hn.le
    obtain ⟨hwfin, hwval⟩ := hword.exact hgrid
    have := rounds_mul hwfin hfin
    rwa [hone, mul_one, hwval, ← heq] at this
  · -- A greater one is given 53 more bits and a lower exponent, and rounded by a shift to the
    -- right.
    have h0 : n ≠ 0 := by omega
    have heq : n.toFloat = Float.ofModel
        (Float.Model.pack (roundWithAccuracy .binary64 (.positive * .positive) (n <<< 53 * 1)
          (-53 + 0) .exact)) := by
      show Float.ofScientific n false 0 = _
      rw [Float.ofScientific, dif_neg fun h => hn h.1]
      show Float.ofModel (Float.Model.pack (UnpackedFloat.ofScientific .binary64 n 0)) = _
      have hbits : (0 : ℤ) ≤ 2 ^ Format.binary64.exponentBits := by decide
      rw [UnpackedFloat.ofScientific, dif_neg h0, if_neg (by decide),
        if_neg (by omega), if_pos le_rfl]
      rfl
    have htarget : (-53 : ℤ) + 0 ≤ target (n <<< 53 * 1) (-53 + 0) := by
      refine le_trans ?_ (le_max_left _ _)
      rw [mul_one, log2_shiftLeft h0]
      push_cast
      omega
    have hshift := cast_shiftLeft n 53 0
    rw [show (0 : ℤ) - (53 : ℕ) = -53 from rfl, zpow_zero, mul_one] at hshift
    have hvalue : signed .positive ((n <<< 53 : ℕ) * 2 ^ (-53 : ℤ)) *
        signed .positive ((1 : ℕ) * 2 ^ (0 : ℤ)) = n := by
      simp only [signed, hshift, Nat.cast_one, zpow_zero, mul_one]
    rw [heq, ← hvalue]
    exact rounds_mul_finite htarget

/-! ## Signs -/

/-- The number has the sign plus, also if it is a zero. -/
def Plus : UnpackedFloat → Prop
  | .notANumber => True
  | .infinity s => s = .positive
  | .zero s => s = .positive
  | .finite s _ _ _ => s = .positive

theorem plus_zero : Plus (Float.Model.pack (.zero .positive)).unpack := by
  rw [unpack_pack (u := .zero .positive) trivial]
  rfl

theorem plus_settled (h : RoundsTo q n t) :
    Plus (Float.Model.pack (settled .positive n t)).unpack := by
  rcases unpack_pack_settled .positive h with ⟨-, hu⟩ | ⟨m, e, p, hu, -⟩ | ⟨hu, -⟩ <;>
    rw [hu] <;> rfl

theorem plus_toFloat_word (n : UInt64) : Plus n.toFloat.toModel.unpack := by
  show Plus (Float.Model.pack (UnpackedFloat.normalize .binary64 n.toNat 0 .positive)).unpack
  unfold UnpackedFloat.normalize
  rcases (Int.natCast_nonneg n.toNat).eq_or_lt with hn | hn
  · rw [compare_eq_iff_eq.mpr hn.symm]
    exact plus_zero
  · rw [compare_gt_iff_gt.mpr hn]
    obtain ⟨k, t, h, heq⟩ := round_eq .positive (m := (n.toNat : ℤ).toNat) (by omega) 0
    dsimp only
    rw [heq]
    exact plus_settled h

/-- Numbers with the sign plus have such a quotient. -/
theorem plus_div (hx : Plus x.toModel.unpack) (hy : Plus y.toModel.unpack) (hfx : x.isFinite = true)
    (hfy : y.isFinite = true) (h0 : value y ≠ 0) : Plus (x / y).toModel.unpack := by
  show Plus
    (Float.Model.pack (UnpackedFloat.div .binary64 x.toModel.unpack y.toModel.unpack)).unpack
  rcases finite_cases hfy with ⟨s₂, hu₂, hv₂⟩ | ⟨s₂, m₂, e₂, p₂, hu₂, -⟩
  · exact absurd hv₂ h0
  · rw [hu₂] at hy ⊢
    obtain rfl : s₂ = .positive := hy
    rcases finite_cases hfx with ⟨s₁, hu₁, -⟩ | ⟨s₁, m₁, e₁, p₁, hu₁, -⟩ <;> rw [hu₁] at hx ⊢ <;>
      obtain rfl : s₁ = .positive := hx
    · exact plus_zero
    · obtain ⟨n, t, hn, heq⟩ := div_eq .positive p₁.ne' p₂.ne' e₁ e₂
      have := plus_settled hn
      rw [← heq] at this
      exact this

end Stopwatch.Rounding
