import Stopwatch.Decimal.Reading
import Stopwatch.Proofs.Float.Quotient
import Stopwatch.Proofs.Text.Characters
import Stopwatch.Proofs.Text.Numerals

/-!
# Reading a whole number as a float

The digits of a natural number are read as this number, rounded to a float (`exists_read?_ofNat`).
They are no word and have no sign, no point, no exponent and no mark of a base, so all that is left
is the number that they spell and its rounding.
-/

namespace Stopwatch.FloatReading

open Rounding
open Whole (bounds_of_isDigit ne_of_isDigit splitSign_of_isDigit digitValue?_of_isDigit)

variable {b : UInt8} {bs : List UInt8}

/-! ## Digits -/

theorem ne_of_not_isDigit {t : Text} (h : ∀ b ∈ bs, Whole.isDigit b = true)
    (ht : ∃ b ∈ t.bytes, Whole.isDigit b = false) : (Text.mk bs == t) = false := by
  obtain ⟨b, hb, hnot⟩ := ht
  refine beq_false_of_ne ?_
  rintro rfl
  exact ne_of_isDigit (h b hb) hnot rfl

/-- Digits are no word, since a word has letters. -/
theorem word?_of_isDigit (h : ∀ b ∈ bs, Whole.isDigit b = true) : word? bs = none := by
  have hlower :=
    (List.map_congr_left fun b hb => lowerByte_of_isDigit (h b hb)).trans (List.map_id bs)
  have hinf : (Text.mk bs == "inf") = false := ne_of_not_isDigit h ⟨0x69, by decide, by decide⟩
  have hinfinity : (Text.mk bs == "infinity") = false :=
    ne_of_not_isDigit h ⟨0x69, by decide, by decide⟩
  have hnan : (Text.mk bs == "nan") = false := ne_of_not_isDigit h ⟨0x6e, by decide, by decide⟩
  simp only [word?, splitSign_of_isDigit h, hlower, hinf, hinfinity, hnan]
  rfl

/-- Digits are taken up one by one. -/
theorem mantissa_of_isDigit (h : ∀ b ∈ bs, Whole.isDigit b = true) (hne : bs ≠ []) (acc : Mantissa)
    (hpoint : acc.point = false) :
    mantissa 10 acc bs =
      ({ acc with
          value := bs.foldl (fun acc b => acc * 10 + (b.toNat - 0x30)) acc.value
          digits := true }, []) := by
  induction bs generalizing acc with
  | nil => exact absurd rfl hne
  | cons b bs ih =>
    obtain ⟨hb, hbs⟩ := List.forall_mem_cons.mp h
    have hbounds := bounds_of_isDigit hb
    have hunderscore : (b == 0x5f) = false := beq_false_of_ne (ne_of_isDigit hb (by decide))
    have hdot : (b == 0x2e) = false := beq_false_of_ne (ne_of_isDigit hb (by decide))
    rw [mantissa, hunderscore, hdot, digitValue?_of_isDigit hb]
    simp only [Bool.false_eq_true, if_false, hpoint,
      if_pos (show b.toNat - 0x30 < 10 by omega), List.foldl_cons]
    cases bs with
    | nil => simp [mantissa]
    | cons b' bs => exact ih hbs (by simp) _ rfl

/-! ## Numbers -/

/-- After a zero there is a digit and no mark. -/
theorem isHexadecimal_of_isDigit (h : ∀ b ∈ bs, Whole.isDigit b = true) :
    isHexadecimal bs = false := by
  unfold isHexadecimal
  split
  · next x _ _ =>
    have hx : Whole.isDigit x = true := h x (by simp)
    have hlower : (x == 0x78) = false := beq_false_of_ne (ne_of_isDigit hx (by decide))
    have hupper : (x == 0x58) = false := beq_false_of_ne (ne_of_isDigit hx (by decide))
    rw [hlower, hupper, Bool.or_false]
  · rfl

theorem number?_of_isDigit (h : ∀ b ∈ bs, Whole.isDigit b = true) (hne : bs ≠ []) :
    number? bs = Binary.ofDecimal false (Whole.digitsValue bs) 0 := by
  have hunderscore : bs.contains 0x5f = false := by
    rw [List.contains_eq_mem, decide_eq_false_iff_not]
    intro hmem
    exact absurd (h _ hmem) (by decide)
  have hmantissa := mantissa_of_isDigit h hne {} rfl
  unfold number?
  rw [splitSign_of_isDigit h]
  simp only [isHexadecimal_of_isDigit h, Bool.false_eq_true, if_false, hmantissa, hunderscore]
  rfl

theorem exists_ofDecimal {n : ℕ} (hn : n < 2 ^ 64) :
    ∃ x, Binary.ofDecimal false n 0 = some x ∧ Rounds n x := by
  unfold Binary.ofDecimal
  by_cases h0 : n = 0
  · subst h0
    simpa using Binary.exists_pack_zero false
  · have hlog : n.log2 ≤ 63 := log2_le_of_lt hn
    have hdigits : (n.log2 : ℤ) * 30103 / 100000 ≤ 400 := by omega
    have hone : Binary.tenTo (0 : ℤ).toNat = 1 := rfl
    have hone' : Binary.tenTo (-0 : ℤ).toNat = 1 := rfl
    rw [if_neg (by simpa using h0)]
    dsimp only
    rw [if_neg (by omega), if_neg (by omega), hone, hone', Nat.mul_one]
    rcases Binary.ofRatio_cases false h0 one_ne_zero with ⟨-, hgreat⟩ | ⟨x, hx, hrounds⟩
    · have hword : (n : ℚ) < 2 ^ 64 := by exact_mod_cast hn
      have hreach : (2 : ℚ) ^ 64 ≤ 2 ^ 1023 := pow_le_pow_right₀ (by norm_num) (by norm_num)
      rw [Nat.cast_one, div_one] at hgreat
      exact absurd (hword.trans_le hreach) (not_lt.mpr hgreat.le)
    · exact ⟨x, hx, by simpa using hrounds⟩

/-- **The digits of a natural number are read as the number rounded.** -/
theorem exists_read?_ofNat {n : ℕ} (hn : n < 2 ^ 64) :
    ∃ x, read? (Text.ofNat n) = some x ∧ Rounds n x := by
  have hdigits : ∀ b ∈ (Text.ofNat n).bytes, Whole.isDigit b = true :=
    fun _ => Text.isDigit_of_mem_ofNat
  have hne := Text.bytes_ofNat_ne_nil n
  obtain ⟨x, hx, hrounds⟩ := exists_ofDecimal hn
  refine ⟨x, ?_, hrounds⟩
  rw [read?, word?_of_isDigit hdigits, number?_of_isDigit hdigits hne, Text.digitsValue_ofNat, hx]

end Stopwatch.FloatReading
