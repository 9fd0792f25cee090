import Stopwatch.Proofs.Float.Rounding

/-!
# The value of a float

`value` gives the exact number that a float stands for. An infinity counts as `±2 ^ 1024`, the first
power of two beyond the finite floats, so that the order of floats is the order of their values
(`lt_iff`, `le_iff`, `beq_iff`) as long as both are numbers.

The bits of a float are taken apart into sign, mantissa and exponent. What comes out is always in
one form (`Canonical`), and what is in this form comes out of its own bits again (`unpack_pack`).
-/

open Float.Model Float.Model.UnpackedFloat

namespace Stopwatch.Rounding

/-! ## The form of what bits stand for -/

/-- A finite number has its 53 bits unless its exponent is the least one. -/
def Canonical : UnpackedFloat → Prop
  | .finite _ m e _ => m < 2 ^ 53 ∧ -1074 ≤ e ∧ e ≤ 971 ∧ (-1074 < e → 2 ^ 52 ≤ m)
  | _ => True

theorem toNat_one_append {w : ℕ} (m : BitVec w) : (1#1 ++ m).toNat = 2 ^ w + m.toNat := by
  rw [BitVec.toNat_append, ← Nat.shiftLeft_add_eq_or_of_lt m.isLt, BitVec.toNat_ofNat,
    Nat.one_mod, Nat.one_shiftLeft]

theorem exponentBias_binary64 : Format.binary64.exponentBias = 1023 := rfl

theorem canonical_unpack (x : Float.Model) : Canonical x.unpack := by
  unfold Float.Model.unpack
  set mv : BitVec Format.binary64.mantissaBitsWithoutImplicit :=
    unpackMantissa x.toBits.toBitVec with hmv
  set ev : BitVec Format.binary64.exponentBits := unpackExponent x.toBits.toBitVec with hev
  have hm : mv.toNat < 2 ^ 52 := mv.isLt
  have he : ev.toNat < 2 ^ 11 := ev.isLt
  simp only [UnpackedFloat.unpack, ← hmv, ← hev]
  split
  · split <;> trivial
  · next h1 =>
    split
    · next h2 =>
      split
      · trivial
      · rw [h2]
        exact ⟨hm.trans (by decide), by decide, by decide, fun h => absurd h (by decide)⟩
    · next h2 =>
      have he1 : ev.toNat ≠ 2047 := fun h => h1 (BitVec.eq_of_toNat_eq h)
      have he2 : ev.toNat ≠ 0 := fun h => h2 (BitVec.eq_of_toNat_eq h)
      have happ := toNat_one_append (w := 52) mv
      simp only [Canonical, exponentBias_binary64]
      refine ⟨?_, ?_, ?_, ?_⟩
      · exact lt_of_eq_of_lt happ (by omega)
      · push_cast
        omega
      · push_cast
        omega
      · intro _
        exact le_of_le_of_eq (by omega) happ.symm

theorem unpack_packComponents (s : Sign) (ev : BitVec 11) (mv : BitVec 52) :
    UnpackedFloat.unpack .binary64 (packComponents .binary64 s ev mv) =
      if ev = -1#_ then if mv = 0#_ then .infinity s else .notANumber
      else if ev = 0#_ then
        if h : mv = 0#_ then .zero s
        else .finite s mv.toNat (-1074) (by simpa [BitVec.toNat_pos, BitVec.pos_iff_ne_zero])
      else .finite s (2 ^ 52 + mv.toNat) ((ev.toNat : ℤ) - 1075) (by omega) := by
  simp only [UnpackedFloat.unpack, unpackSign_packComponents, Sign.ofBitVec_toBitVec,
    unpackMantissa_packComponents, unpackExponent_packComponents,
    exponentBias_binary64, toNat_one_append]
  by_cases h1 : ev = -1#_
  · rw [if_pos h1, if_pos h1]
  · rw [if_neg h1, if_neg h1]
    by_cases h2 : ev = 0#_
    · subst h2
      rfl
    · rw [if_neg h2, if_neg h2]
      rfl

theorem pack_finite_of_le {m : ℕ} {e : ℤ} (s : Sign) (hm : 0 < m) (h1 : -1074 ≤ e) (h2 : e ≤ 971) :
    UnpackedFloat.pack .binary64 (.finite s m e hm) =
      packComponents .binary64 s (if m.log2 = 52 then BitVec.ofNat 11 (e + 1075).toNat else 0#11)
        (BitVec.ofNat 52 m) := by
  have hsum : e + ((1023 : ℕ) : ℤ) + ((52 : ℕ) : ℤ) = e + 1075 := by omega
  have hexp : ¬ 2 ^ 11 ≤ (e + 1075).toNat + 1 := by omega
  simp only [UnpackedFloat.pack, exponentBias_binary64, hsum]
  rw [if_neg hexp]
  by_cases hlog : m.log2 = 52
  · rw [if_pos hlog, hlog]
    rfl
  · rw [if_neg hlog, if_neg]
    intro h
    exact hlog (by simpa [Format.mantissaBits, Nat.add_comm] using h)

theorem pack_finite_of_lt {m : ℕ} {e : ℤ} (s : Sign) (hm : 0 < m) (h : 971 < e) :
    UnpackedFloat.pack .binary64 (.finite s m e hm) = packedInfinity .binary64 s := by
  have hsum : e + ((1023 : ℕ) : ℤ) + ((52 : ℕ) : ℤ) = e + 1075 := by omega
  have hexp : 2 ^ 11 ≤ (e + 1075).toNat + 1 := by omega
  simp only [UnpackedFloat.pack, exponentBias_binary64, hsum]
  rw [if_pos hexp]

/-- Bits that are put together from a number in the form of bits come apart into it again. -/
theorem unpack_pack {u : UnpackedFloat} (h : Canonical u) : (Float.Model.pack u).unpack = u := by
  show UnpackedFloat.unpack .binary64 (UnpackedFloat.pack .binary64 u) = u
  cases u with
  | notANumber => rfl
  | infinity s => cases s <;> rfl
  | zero s => cases s <;> rfl
  | finite s m e hm =>
    obtain ⟨h1, h2, h3, h4⟩ := h
    rw [pack_finite_of_le s hm h2 h3, unpack_packComponents]
    by_cases hlog : m.log2 = 52
    · have hlo : 2 ^ 52 ≤ m := hlog ▸ Nat.log2_self_le hm.ne'
      have hev : (BitVec.ofNat 11 (e + 1075).toNat).toNat = (e + 1075).toNat := by
        rw [BitVec.toNat_ofNat]
        exact Nat.mod_eq_of_lt (by omega)
      have hmv : 2 ^ 52 + (BitVec.ofNat 52 m).toNat = m := by
        rw [BitVec.toNat_ofNat]
        omega
      have hne : ∀ v : BitVec 11, v.toNat = 0 ∨ v.toNat = 2047 →
          BitVec.ofNat 11 (e + 1075).toNat ≠ v := by
        rintro v hv rfl
        omega
      rw [if_pos hlog, if_neg (hne _ (.inr rfl)), if_neg (hne _ (.inl rfl))]
      simp only [hmv, hev]
      congr 1
      omega
    · have hlt : m < 2 ^ 52 := by
        by_contra hge
        exact hlog (le_antisymm (log2_le_of_lt h1) ((Nat.le_log2 hm.ne').mpr (not_lt.mp hge)))
      have he : e = -1074 := by
        by_contra hne
        have := h4 (by omega)
        omega
      have hmv : (BitVec.ofNat 52 m).toNat = m := Nat.mod_eq_of_lt hlt
      subst he
      rw [if_neg hlog, if_neg (by decide), if_pos rfl, dif_neg]
      · simp only [hmv]
      · intro h
        have := congrArg BitVec.toNat h
        rw [hmv] at this
        exact hm.ne' this

/-! ## Values -/

/-- A magnitude with a sign. -/
def signed : Sign → ℚ → ℚ
  | .negative, q => -q
  | .positive, q => q

/-- What a number taken apart stands for. -/
def worth : UnpackedFloat → ℚ
  | .notANumber => 0
  | .infinity s => signed s beyond
  | .zero _ => 0
  | .finite s m e _ => signed s (m * 2 ^ e)

/-- The exact number that a float stands for; an infinity counts as the power of two that is out of
reach. -/
def value (x : Float) : ℚ := worth x.toModel.unpack

variable {m m₁ m₂ : ℕ} {e e₁ e₂ : ℤ}

theorem mul_zpow_lt (h1 : m < 2 ^ 53) (h3 : e ≤ 971) : (m : ℚ) * 2 ^ e < beyond := by
  have hm : (m : ℚ) < 2 ^ 53 := by exact_mod_cast h1
  calc (m : ℚ) * 2 ^ e < 2 ^ 53 * 2 ^ e := mul_lt_mul_of_pos_right hm (two_zpow_pos e)
    _ ≤ 2 ^ 53 * 2 ^ (971 : ℤ) :=
      mul_le_mul_of_nonneg_left (zpow_le_zpow_right₀ (by norm_num) h3) (by positivity)
    _ = beyond := by
      rw [show (971 : ℤ) = ((971 : ℕ) : ℤ) from rfl, zpow_natCast, ← pow_add, beyond]

theorem mul_zpow_pos (hm : 0 < m) (e : ℤ) : (0 : ℚ) < m * 2 ^ e := by
  have : (0 : ℚ) < m := by exact_mod_cast hm
  positivity

/-- A smaller exponent means a smaller number, whatever the mantissas. -/
theorem mul_zpow_lt_of_lt (h1 : m₁ < 2 ^ 53) (h2 : 2 ^ 52 ≤ m₂) (he : e₁ < e₂) :
    (m₁ : ℚ) * 2 ^ e₁ < m₂ * 2 ^ e₂ := by
  have hm₁ : (m₁ : ℚ) < 2 ^ 53 := by exact_mod_cast h1
  have hm₂ : (2 : ℚ) ^ 52 ≤ m₂ := by exact_mod_cast h2
  calc (m₁ : ℚ) * 2 ^ e₁ < 2 ^ 53 * 2 ^ e₁ := mul_lt_mul_of_pos_right hm₁ (two_zpow_pos e₁)
    _ = 2 ^ 52 * 2 ^ (e₁ + 1) := by rw [zpow_add_one₀ two_ne_zero]; ring
    _ ≤ 2 ^ 52 * 2 ^ e₂ := mul_le_mul_of_nonneg_left
      (zpow_le_zpow_right₀ (by norm_num) he) (by positivity)
    _ ≤ m₂ * 2 ^ e₂ := mul_le_mul_of_nonneg_right hm₂ (two_zpow_pos e₂).le

/-- Exponent and mantissa compare like the magnitudes. -/
theorem compare_magnitude {s₁ s₂ : Sign} {p₁ : 0 < m₁} {p₂ : 0 < m₂}
    (h₁ : Canonical (.finite s₁ m₁ e₁ p₁)) (h₂ : Canonical (.finite s₂ m₂ e₂ p₂)) :
    (compare e₁ e₂).then (compare m₁ m₂) = compare ((m₁ : ℚ) * 2 ^ e₁) (m₂ * 2 ^ e₂) := by
  rcases lt_trichotomy e₁ e₂ with he | rfl | he
  · rw [compare_lt_iff_lt.mpr he]
    exact (compare_lt_iff_lt.mpr
      (mul_zpow_lt_of_lt h₁.1 (h₂.2.2.2 (lt_of_le_of_lt h₁.2.1 he)) he)).symm
  · rw [compare_eq_iff_eq.mpr rfl, Ordering.then]
    have hpos := two_zpow_pos e₁
    rcases lt_trichotomy m₁ m₂ with hm | rfl | hm
    · have : (m₁ : ℚ) < m₂ := by exact_mod_cast hm
      rw [compare_lt_iff_lt.mpr hm, compare_lt_iff_lt.mpr (mul_lt_mul_of_pos_right this hpos)]
    · rw [compare_eq_iff_eq.mpr rfl, compare_eq_iff_eq.mpr rfl]
    · have : (m₂ : ℚ) < m₁ := by exact_mod_cast hm
      rw [compare_gt_iff_gt.mpr hm, compare_gt_iff_gt.mpr (mul_lt_mul_of_pos_right this hpos)]
  · rw [compare_gt_iff_gt.mpr he]
    exact (compare_gt_iff_gt.mpr
      (mul_zpow_lt_of_lt h₂.1 (h₁.2.2.2 (lt_of_le_of_lt h₂.2.1 he)) he)).symm

theorem compare_neg_neg (p q : ℚ) : compare (-p) (-q) = (compare p q).swap := by
  rcases lt_trichotomy p q with h | rfl | h
  · rw [compare_lt_iff_lt.mpr h, compare_gt_iff_gt.mpr (neg_lt_neg h), Ordering.swap]
  · rw [compare_eq_iff_eq.mpr rfl, compare_eq_iff_eq.mpr rfl, Ordering.swap]
  · rw [compare_gt_iff_gt.mpr h, compare_lt_iff_lt.mpr (neg_lt_neg h), Ordering.swap]

/-- Numbers compare as what they stand for. -/
theorem compare_eq {a b : UnpackedFloat} (ha : Canonical a)
    (hb : Canonical b) (hna : a ≠ .notANumber) (hnb : b ≠ .notANumber) :
    a.compare b = some (compare (worth a) (worth b)) := by
  have hbig := beyond_pos
  have bounds : ∀ {s m e p}, Canonical (.finite s m e p) → (0 : ℚ) < m * 2 ^ e ∧
      (m : ℚ) * 2 ^ e < beyond :=
    fun {_ _ e p} h => ⟨mul_zpow_pos p e, mul_zpow_lt h.1 h.2.2.1⟩
  have lt : ∀ {p q : ℚ}, p < q → some Ordering.lt = some (compare p q) :=
    fun h => congrArg some (compare_lt_iff_lt.mpr h).symm
  have gt : ∀ {p q : ℚ}, q < p → some Ordering.gt = some (compare p q) :=
    fun h => congrArg some (compare_gt_iff_gt.mpr h).symm
  have eq : ∀ {p : ℚ}, some Ordering.eq = some (compare p p) :=
    congrArg some (compare_eq_iff_eq.mpr rfl).symm
  -- Magnitudes matter only between finite numbers of one sign; the rest is settled by signs and by
  -- infinities.
  cases a with
  | notANumber => exact absurd rfl hna
  | infinity s₁ =>
    cases b with
    | notANumber => exact absurd rfl hnb
    | infinity s₂ =>
      cases s₁ <;> cases s₂ <;> simp only [worth, signed]
      · exact eq
      · exact lt (by linarith)
      · exact gt (by linarith)
      · exact eq
    | zero s₂ =>
      cases s₁ <;> simp only [worth, signed]
      · exact lt (by linarith)
      · exact gt (by linarith)
    | finite s₂ m₂ e₂ p₂ =>
      obtain ⟨h1, h2⟩ := bounds hb
      cases s₁ <;> cases s₂ <;> simp only [worth, signed]
      · exact lt (by linarith)
      · exact lt (by linarith)
      · exact gt (by linarith)
      · exact gt (by linarith)
  | zero s₁ =>
    cases b with
    | notANumber => exact absurd rfl hnb
    | infinity s₂ =>
      cases s₂ <;> simp only [worth, signed]
      · exact gt (by linarith)
      · exact lt (by linarith)
    | zero s₂ => exact eq
    | finite s₂ m₂ e₂ p₂ =>
      obtain ⟨h1, h2⟩ := bounds hb
      cases s₂ <;> simp only [worth, signed]
      · exact gt (by linarith)
      · exact lt (by linarith)
  | finite s₁ m₁ e₁ p₁ =>
    obtain ⟨h1, h2⟩ := bounds ha
    cases b with
    | notANumber => exact absurd rfl hnb
    | infinity s₂ =>
      cases s₁ <;> cases s₂ <;> simp only [worth, signed]
      · exact gt (by linarith)
      · exact lt (by linarith)
      · exact gt (by linarith)
      · exact lt (by linarith)
    | zero s₂ =>
      cases s₁ <;> simp only [worth, signed]
      · exact lt (by linarith)
      · exact gt (by linarith)
    | finite s₂ m₂ e₂ p₂ =>
      obtain ⟨h3, h4⟩ := bounds hb
      have hmag := compare_magnitude ha hb
      cases s₁ <;> cases s₂ <;> simp only [worth, signed]
      · rw [UnpackedFloat.compare, hmag, compare_neg_neg]
      · exact lt (by linarith)
      · exact gt (by linarith)
      · rw [UnpackedFloat.compare, hmag]

theorem value_zero : value 0.0 = 0 := rfl

theorem isNaN_zero : (0.0 : Float).isNaN = false := rfl

theorem value_one : value 1.0 = 1 := by decide +kernel

/-! ## Order -/

variable {x y : Float}

theorem ne_notANumber (h : x.isNaN = false) : x.toModel.unpack ≠ .notANumber := by
  intro hn
  have : x.isNaN = x.toModel.unpack.isNaN := rfl
  rw [this, hn] at h
  exact absurd h (by decide)

theorem compare_toModel (hx : x.isNaN = false) (hy : y.isNaN = false) :
    x.toModel.unpack.compare y.toModel.unpack = some (compare (value x) (value y)) :=
  compare_eq (canonical_unpack _) (canonical_unpack _) (ne_notANumber hx) (ne_notANumber hy)

theorem lt_iff (hx : x.isNaN = false) (hy : y.isNaN = false) : x < y ↔ value x < value y := by
  show decide ((x.toModel.unpack.compare y.toModel.unpack == some .lt) = true) = true ↔ _
  rw [decide_eq_true_iff, compare_toModel hx hy, beq_iff_eq, Option.some_inj, compare_lt_iff_lt]

theorem le_iff (hx : x.isNaN = false) (hy : y.isNaN = false) : x ≤ y ↔ value x ≤ value y := by
  show decide ((x.toModel.unpack.compare y.toModel.unpack).any (·.isLE) = true) = true ↔ _
  rw [decide_eq_true_iff, compare_toModel hx hy, Option.any_some, Ordering.isLE_iff_ne_gt]
  exact compare_le_iff_le

theorem beq_iff (hx : x.isNaN = false) (hy : y.isNaN = false) :
    (x == y) = true ↔ value x = value y := by
  show (x.toModel.unpack.compare y.toModel.unpack == some .eq) = true ↔ _
  rw [compare_toModel hx hy, beq_iff_eq, Option.some_inj, compare_eq_iff_eq]

/-- A float is finite if it is a number within reach. -/
theorem isFinite_iff : x.isFinite = true ↔ x.isNaN = false ∧ |value x| < beyond := by
  show x.toModel.unpack.isFinite = true ↔ x.toModel.unpack.isNaN = false ∧
    |worth x.toModel.unpack| < beyond
  have hcanon := canonical_unpack x.toModel
  cases hu : x.toModel.unpack with
  | notANumber => simp [UnpackedFloat.isFinite, UnpackedFloat.isNaN]
  | infinity s => cases s <;> simp [UnpackedFloat.isFinite, worth, signed, abs_of_pos beyond_pos]
  | zero s => simp [UnpackedFloat.isFinite, UnpackedFloat.isNaN, worth, beyond_pos]
  | finite s m e p =>
    rw [hu] at hcanon
    have h : |(m : ℚ) * 2 ^ e| < beyond := by
      rw [abs_of_pos (mul_zpow_pos p e)]
      exact mul_zpow_lt hcanon.1 hcanon.2.2.1
    cases s <;> simpa [UnpackedFloat.isFinite, UnpackedFloat.isNaN, worth, signed] using h

/-- The value of a finite float needs no more than 53 bits. -/
theorem onGrid_value (h : x.isFinite = true) : OnGrid (value x) := by
  have hlt := (isFinite_iff.mp h).2
  have hcanon := canonical_unpack x.toModel
  refine ⟨hlt, ?_⟩
  show ∃ m e : ℤ, |m| ≤ 2 ^ 53 ∧ -1074 ≤ e ∧ worth x.toModel.unpack = m * 2 ^ e
  replace h : x.toModel.unpack.isFinite = true := h
  cases hu : x.toModel.unpack with
  | notANumber => simp [hu, UnpackedFloat.isFinite] at h
  | infinity s => simp [hu, UnpackedFloat.isFinite] at h
  | zero s => exact ⟨0, 0, by simp, by decide, by simp [worth]⟩
  | finite s m e p =>
    rw [hu] at hcanon
    have hm : |(m : ℤ)| ≤ 2 ^ 53 := by
      have := hcanon.1
      rw [abs_of_nonneg (by omega)]
      omega
    cases s with
    | negative => exact ⟨-m, e, by rwa [abs_neg], hcanon.2.1, by simp [worth, signed]⟩
    | positive => exact ⟨m, e, hm, hcanon.2.1, by simp [worth, signed]⟩

end Stopwatch.Rounding
