import Mathlib.Order.Nat
import Mathlib.Tactic.SplitIfs
import Stopwatch.Decimal.Whole

/-!
# Numerals

What the readers of whole numbers do with digits. A reader of plain decimals accepts nothing else,
and gives the number that the digits spell (`readPlain_eq_ok`). A reader that knows base marks takes
a leading zero for the mark of an octal number (`baseMark_zero_cons`). So a text that both accept
stands for two different numbers exactly if it has a leading zero and two digits or more after its
zeros (`LooksOctal`, `readMarkedInt64_eq_iff`, `readMarkedUInt64_eq_iff`).
-/

namespace Stopwatch.Whole

variable {b : UInt8} {bs : List UInt8} {t : Text} {base most acc n : ℕ} {underscores : Bool}

/-! ## Digits -/

theorem bounds_of_isDigit (h : isDigit b = true) :
    0x30 ≤ b.toNat ∧ b.toNat ≤ 0x39 := of_decide_eq_true h

theorem ne_of_isDigit {c : UInt8} (h : isDigit b = true) (hc : isDigit c = false) : b ≠ c := by
  rintro rfl
  rw [h] at hc
  cases hc

/-- What begins with a digit has no sign. -/
theorem splitSign_of_head? (h : ∀ b ∈ bs.head?, isDigit b = true) : splitSign bs = (false, bs) := by
  cases bs with
  | nil => rfl
  | cons b bs =>
    have hb := h b rfl
    have hminus := ne_of_isDigit hb (c := 0x2d) (by decide)
    have hplus := ne_of_isDigit hb (c := 0x2b) (by decide)
    unfold splitSign
    split
    · next heq => exact absurd (List.cons.inj heq).1 hminus
    · next heq => exact absurd (List.cons.inj heq).1 hplus
    · rfl

theorem splitSign_of_isDigit (h : ∀ b ∈ bs, isDigit b = true) : splitSign bs = (false, bs) :=
  splitSign_of_head? fun b hb => h b (List.mem_of_mem_head? hb)

theorem digitValue?_of_isDigit (h : isDigit b = true) : digitValue? b = some (b.toNat - 0x30) :=
  if_pos (of_decide_eq_true h)

theorem isDigit_of_digitValue? {d : ℕ} (h : digitValue? b = some d) (hd : d < 10) :
    isDigit b = true := by
  unfold digitValue? at h
  split_ifs at h with h1 h2 h3
  · exact decide_eq_true h1
  · obtain rfl := Option.some.inj h
    omega
  · obtain rfl := Option.some.inj h
    omega

/-! ## The number that digits spell -/

/-- The number that digits spell in a base, after what was read before them. -/
def valueFrom (base acc : ℕ) (bs : List UInt8) : ℕ :=
  bs.foldl (fun acc b => acc * base + (b.toNat - 0x30)) acc

theorem valueFrom_cons : valueFrom base acc (b :: bs) = valueFrom base
    (acc * base + (b.toNat - 0x30)) bs :=
  List.foldl_cons ..

theorem le_valueFrom (hbase : 1 ≤ base) : acc ≤ valueFrom base acc bs := by
  induction bs generalizing acc with
  | nil => exact le_rfl
  | cons b bs ih =>
    rw [valueFrom_cons]
    refine le_trans ?_ ih
    calc acc ≤ acc * base := Nat.le_mul_of_pos_right acc hbase
      _ ≤ acc * base + (b.toNat - 0x30) := Nat.le_add_right _ _

theorem valueFrom_lt {base' acc' : ℕ} (hbase : base ≤ base') (hpos : 0 < base) (h : acc < acc') :
    valueFrom base acc bs < valueFrom base' acc' bs := by
  induction bs generalizing acc acc' with
  | nil => exact h
  | cons b bs ih =>
    rw [valueFrom_cons, valueFrom_cons]
    refine ih (Nat.add_lt_add_right ?_ _)
    calc acc * base < acc' * base := Nat.mul_lt_mul_of_pos_right h hpos
      _ ≤ acc' * base' := Nat.mul_le_mul_left acc' hbase

/-- **Octal digits spell the same number in both bases as long as there is only one of them after
the zeros**, and a smaller one in octal otherwise. -/
theorem octal_or_decimal (hbs : ∀ b ∈ bs, b.toNat - 0x30 < 8) (hacc : acc < 8) :
    (valueFrom 8 acc bs = valueFrom 10 acc bs ∧ valueFrom 10 acc bs < 8) ∨
      (8 ≤ valueFrom 8 acc bs ∧ valueFrom 8 acc bs < valueFrom 10 acc bs) := by
  induction bs generalizing acc with
  | nil => exact .inl ⟨rfl, hacc⟩
  | cons b bs ih =>
    obtain ⟨hb, hbs⟩ := List.forall_mem_cons.mp hbs
    rw [valueFrom_cons, valueFrom_cons]
    by_cases hzero : acc = 0
    · rw [hzero, Nat.zero_mul, Nat.zero_add]
      exact ih hbs hb
    · -- The digit before this one counts eight times in one base and ten times in the other.
      have hlt : acc * 8 + (b.toNat - 0x30) < acc * 10 + (b.toNat - 0x30) := by omega
      have hle : 8 ≤ acc * 8 + (b.toNat - 0x30) := by omega
      exact .inr ⟨hle.trans (le_valueFrom (by decide)), valueFrom_lt (by decide) (by decide) hlt⟩

/-! ## Readers -/

theorem scan_of_isDigit (hbs : ∀ b ∈ bs, isDigit b = true) (hacc : acc ≤ most)
    (h : scan base most underscores acc bs = .ok n) :
    n = valueFrom base acc bs ∧ n ≤ most ∧ ∀ b ∈ bs, b.toNat - 0x30 < base := by
  induction bs generalizing acc with
  | nil =>
    obtain rfl : acc = n := Except.ok.inj h
    exact ⟨rfl, hacc, List.forall_mem_nil _⟩
  | cons b bs ih =>
    obtain ⟨hb, hbs⟩ := List.forall_mem_cons.mp hbs
    have hunderscore : (b == 0x5f) = false := beq_false_of_ne (ne_of_isDigit hb (by decide))
    simp only [scan, hunderscore, Bool.and_false, Bool.false_eq_true, if_false,
      digitValue?_of_isDigit hb] at h
    split_ifs at h with hbase hmost
    obtain ⟨hn, hle, hrest⟩ := ih hbs (not_lt.mp hmost) h
    exact ⟨hn, hle, List.forall_mem_cons.mpr ⟨not_le.mp hbase, hrest⟩⟩

theorem isDigit_of_scan (h : scan 10 most false acc bs = .ok n) : ∀ b ∈ bs, isDigit b = true := by
  induction bs generalizing acc with
  | nil => exact List.forall_mem_nil _
  | cons b bs ih =>
    rw [scan, Bool.false_and, if_neg Bool.false_ne_true] at h
    cases hd : digitValue? b with
    | none => simp [hd] at h
    | some d =>
      simp only [hd] at h
      split_ifs at h with hbase hmost
      exact List.forall_mem_cons.mpr ⟨isDigit_of_digitValue? hd (not_le.mp hbase), ih h⟩

theorem readPlain_eq_ok (h : readPlain most bs = .ok n) :
    (∀ b ∈ bs, isDigit b = true) ∧ n = digitsValue bs ∧ n ≤ most := by
  unfold readPlain at h
  split_ifs at h
  have hbs := isDigit_of_scan h
  obtain ⟨hn, hle, -⟩ := scan_of_isDigit hbs (Nat.zero_le _) h
  exact ⟨hbs, hn, hle⟩

theorem scan_of_readMarked (h : readMarked most bs = .ok n) :
    scan (baseMark bs).1 most true 0 (baseMark bs).2 = .ok n := by
  unfold readMarked at h
  split_ifs at h
  dsimp only at h
  cases hscan : scan (baseMark bs).1 most true 0 (baseMark bs).2 with
  | error e => simp [hscan] at h
  | ok m =>
    simp only [hscan] at h
    split_ifs at h
    exact h

theorem baseMark_zero_cons (h : isDigit b = true) : baseMark (0x30 :: b :: bs) = (8, b :: bs) := by
  have hne : ∀ c, isDigit c = false → (b == c) = false :=
    fun c hc => beq_false_of_ne (ne_of_isDigit h hc)
  simp [baseMark, hne 0x78 (by decide), hne 0x58 (by decide),
    hne 0x62 (by decide), hne 0x42 (by decide), hne 0x6f (by decide), hne 0x4f (by decide)]

theorem baseMark_of_not_zero_cons (h : ∀ b rest, bs ≠ 0x30 :: b :: rest) :
    baseMark bs = (10, bs) := by
  unfold baseMark
  split
  · next b rest => exact absurd rfl (h b rest)
  · rfl

/-- True of digits that begin with a zero, as octal numbers do, and spell at least eight: as far as
they are octal digits, there are two or more after the leading zeros. -/
def LooksOctal (bs : List UInt8) : Prop := bs.head? = some 0x30 ∧ 8 ≤ digitsValue bs

instance : DecidablePred LooksOctal := fun _ => inferInstanceAs (Decidable (_ ∧ _))

/-- **Two readers of one numeral**: a number that looks octal is smaller with base marks, and every
other is the same. -/
theorem readMarked_of_readPlain {m : ℕ} (hplain : readPlain most bs = .ok m)
    (hmarked : readMarked most bs = .ok n) :
    (n = m ∧ ¬ LooksOctal bs) ∨ (8 ≤ n ∧ n < m ∧ LooksOctal bs) := by
  obtain ⟨hbs, rfl, -⟩ := readPlain_eq_ok hplain
  have hscan := scan_of_readMarked hmarked
  by_cases hzero : ∃ b rest, bs = 0x30 :: b :: rest
  · obtain ⟨b, rest, rfl⟩ := hzero
    obtain ⟨-, hrest⟩ := List.forall_mem_cons.mp hbs
    rw [baseMark_zero_cons (hrest b List.mem_cons_self)] at hscan
    obtain ⟨rfl, -, hoctal⟩ := scan_of_isDigit hrest (Nat.zero_le _) hscan
    have hvalue : digitsValue (0x30 :: b :: rest) = valueFrom 10 0 (b :: rest) := rfl
    rw [LooksOctal, hvalue]
    rcases octal_or_decimal hoctal (Nat.zero_lt_succ 7) with ⟨heq, hlt⟩ | ⟨hle, hlt⟩
    · exact .inl ⟨heq, fun h => absurd h.2 (not_le.mpr hlt)⟩
    · exact .inr ⟨hle, hlt, rfl, hle.trans hlt.le⟩
  · push Not at hzero
    rw [baseMark_of_not_zero_cons hzero] at hscan
    obtain ⟨rfl, -⟩ := scan_of_isDigit hbs (Nat.zero_le _) hscan
    refine .inl ⟨rfl, ?_⟩
    rintro ⟨hhead, hle⟩
    -- The only number with a leading zero that is left is zero itself.
    obtain ⟨tail, rfl⟩ := List.head?_eq_some_iff.mp hhead
    cases tail with
    | nil => exact absurd hle (by decide)
    | cons b rest => exact hzero b rest rfl

/-! ## Signed and unsigned numbers -/

theorem readSigned_eq_ok {read : ℕ → List UInt8 → Except ReadError ℕ} {x : Int64}
    (h : readSigned read t = .ok x) :
    ∃ n, read most64 (splitSign t.bytes).2 = .ok n ∧
      x.toInt = if (splitSign t.bytes).1 = true then -(n : ℤ) else n := by
  unfold readSigned at h
  dsimp only at h
  cases hread : read most64 (splitSign t.bytes).2 with
  | error e => simp [hread] at h
  | ok n =>
    refine ⟨n, rfl, ?_⟩
    simp only [hread] at h
    unfold half64 at h
    split_ifs at h ⊢ with hsign hle hlt
    · obtain rfl := Except.ok.inj h
      exact Int64.toInt_ofInt_of_le (by omega) (by omega)
    · obtain rfl := Except.ok.inj h
      exact Int64.toInt_ofInt_of_le (by omega) (by omega)

section

variable {x y : Int64}

/-- The numbers that a text gives with and without base marks, apart from the sign that they have in
common. -/
theorem readMarkedInt64_of_readInt64 (hplain : readInt64 t = .ok y)
    (hmarked : readMarkedInt64 t = .ok x) :
    ∃ n m : ℕ, (n = m ∧ ¬ LooksOctal (splitSign t.bytes).2 ∨ 8 ≤ n ∧ n < m ∧
        LooksOctal (splitSign t.bytes).2) ∧
      (x.toInt = n ∧ y.toInt = m ∨ x.toInt = -(n : ℤ) ∧ y.toInt = -(m : ℤ)) := by
  obtain ⟨m, hm, hy⟩ := readSigned_eq_ok hplain
  obtain ⟨n, hn, hx⟩ := readSigned_eq_ok hmarked
  refine ⟨n, m, readMarked_of_readPlain hm hn, ?_⟩
  split_ifs at hx hy
  · exact .inr ⟨hx, hy⟩
  · exact .inl ⟨hx, hy⟩

theorem readMarkedInt64_eq_iff (hplain : readInt64 t = .ok y)
    (hmarked : readMarkedInt64 t = .ok x) :
    x = y ↔ ¬ LooksOctal (splitSign t.bytes).2 := by
  obtain ⟨n, m, hnumbers, hsigns⟩ := readMarkedInt64_of_readInt64 hplain hmarked
  rw [← Int64.toInt_inj]
  rcases hnumbers with ⟨heq, hnot⟩ | ⟨-, hlt, hoctal⟩
  · exact iff_of_true (by omega) hnot
  · exact iff_of_false (by omega) (not_not_intro hoctal)

theorem readMarkedInt64_pos_iff (hplain : readInt64 t = .ok y)
    (hmarked : readMarkedInt64 t = .ok x) :
    0 < x ↔ 0 < y := by
  obtain ⟨n, m, hnumbers, hsigns⟩ := readMarkedInt64_of_readInt64 hplain hmarked
  rw [Int64.lt_iff_toInt_lt, Int64.lt_iff_toInt_lt, Int64.toInt_zero]
  omega

end

theorem map_eq_ok_iff {α β : Type} {r : Except ReadError α} {f : α → β} {y : β} :
    r.map f = .ok y ↔ ∃ x, r = .ok x ∧ f x = y := by
  cases r <;> simp [Except.map]

theorem readMarkedUInt64_eq_iff {x y : UInt64} (hplain : readUInt64 t = .ok y)
    (hmarked : readMarkedUInt64 t = .ok x) : x = y ↔ ¬ LooksOctal (splitSign t.bytes).2 := by
  obtain ⟨m, hm, rfl⟩ := map_eq_ok_iff.mp hplain
  obtain ⟨n, hn, rfl⟩ := map_eq_ok_iff.mp hmarked
  obtain ⟨hdigits, -, hle⟩ := readPlain_eq_ok hm
  rw [splitSign_of_isDigit hdigits, ← UInt64.toNat_inj]
  have hsize : m < UInt64.size := Nat.lt_of_le_pred (by decide) hle
  rcases readMarked_of_readPlain hm hn with ⟨rfl, hnot⟩ | ⟨-, hlt, hoctal⟩
  · exact iff_of_true rfl hnot
  · rw [UInt64.toNat_ofNat_of_lt' hsize, UInt64.toNat_ofNat_of_lt' (hlt.trans hsize)]
    exact iff_of_false hlt.ne (not_not_intro hoctal)

end Stopwatch.Whole
