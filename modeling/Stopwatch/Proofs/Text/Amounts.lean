import Mathlib.Tactic.Simps.Basic
import Stopwatch.Duration
import Stopwatch.Proofs.Text.Characters
import Stopwatch.Proofs.Text.Numerals

/-!
# Numbers with units are read back

A duration may be written as numbers with units, one after the other. The names of units have no
digits, so each number ends where its unit begins, and the unit where the next number does
(`component?_amount`). What is read is the sum of what the numbers are worth, as long as it fits
(`read?_amountsText`).
-/

namespace Stopwatch.Duration

variable {rest : List UInt8} {name : Text} {whole ns sum : ℕ}

/-! ## Units -/

theorem isUnitByte_iff {b : UInt8} : isUnitByte b = true ↔ b ≠ 0x2e ∧ Whole.isDigit b = false := by
  simp [isUnitByte]

theorem isUnitByte_of_isDigit {b : UInt8} (h : Whole.isDigit b = true) : isUnitByte b = false := by
  simp [isUnitByte, h]

theorem mem_units (h : unitNs? name = some ns) : (name, ns) ∈ units := by
  obtain ⟨before, after, heq, -⟩ := List.lookup_eq_some_iff.mp h
  rw [heq]
  exact List.mem_append_right before List.mem_cons_self

/-- A unit that durations are read in. -/
structure NamedUnit where
  name : Text
  ns : ℕ
  known : unitNs? name = some ns

namespace NamedUnit

@[simps] def hour : NamedUnit := ⟨"h", 3600000000000, by decide⟩

@[simps] def minute : NamedUnit := ⟨"m", 60000000000, by decide⟩

@[simps] def second : NamedUnit := ⟨"s", 1000000000, by decide⟩

/-- A unit has a name without digits and points, and is worth a nanosecond at least. -/
theorem bounds (u : NamedUnit) : u.name.bytes ≠ [] ∧
    (∀ b ∈ u.name.bytes, isUnitByte b = true) ∧ 1 ≤ u.ns := by
  have hall : ∀ v ∈ units, v.1.bytes ≠ [] ∧ (∀ b ∈ v.1.bytes, isUnitByte b = true) ∧
    1 ≤ v.2 := by decide +kernel
  exact hall _ (mem_units u.known)

end NamedUnit

/-! ## A number with its unit -/

/-- A number of a unit. -/
structure Amount where
  count : ℕ
  unit : NamedUnit

namespace Amount

def text (a : Amount) : Text := Text.ofNat a.count ++ a.unit.name

/-- The nanoseconds that the number stands for. -/
def worth (a : Amount) : ℕ := a.count * a.unit.ns

theorem bytes_text (a : Amount) :
    a.text.bytes = (Text.ofNat a.count).bytes ++ a.unit.name.bytes := rfl

end Amount

/-- The end, or a digit. -/
def DigitHead (bs : List UInt8) : Prop := ∀ b ∈ bs.head?, Whole.isDigit b = true

theorem digitHead_amount (a : Amount) (rest : List UInt8) : DigitHead (a.text.bytes ++ rest) := by
  obtain ⟨c, cs, hcs⟩ := List.exists_cons_of_ne_nil (Text.bytes_ofNat_ne_nil a.count)
  rw [DigitHead, Amount.bytes_text, hcs, List.cons_append, List.cons_append, List.head?_cons]
  rintro b ⟨⟩
  exact Text.isDigit_of_mem_ofNat (n := a.count) (hcs ▸ List.mem_cons_self)

/-- There is a digit, and a byte of the unit. -/
theorem two_le_length_text (a : Amount) : 2 ≤ a.text.bytes.length := by
  have hdigits := List.length_pos_iff.mpr (Text.bytes_ofNat_ne_nil a.count)
  have hname := List.length_pos_iff.mpr a.unit.bounds.1
  rw [Amount.bytes_text, List.length_append]
  omega

/-- A run of bytes ends where the next byte is not one of them. -/
theorem takeWhile_append_eq {p : UInt8 → Bool} {bs : List UInt8} (hbs : ∀ b ∈ bs, p b = true)
    (hrest : ∀ b ∈ rest.head?, p b = false) :
    (bs ++ rest).takeWhile p = bs ∧ (bs ++ rest).dropWhile p = rest := by
  rw [List.takeWhile_append_of_pos hbs, List.dropWhile_append_of_pos hbs]
  cases rest with
  | nil => exact ⟨List.append_nil bs, rfl⟩
  | cons b rest =>
    have hb : ¬ p b = true := by simp [hrest b rfl]
    rw [List.takeWhile_cons_of_neg hb, List.dropWhile_cons_of_neg hb, List.append_nil]
    exact ⟨rfl, rfl⟩

theorem splitPart_of_ne (h : ∀ b ∈ rest.head?, b ≠ 0x2e) : splitPart rest = ([], rest) := by
  unfold splitPart
  split
  · exact absurd rfl (h 0x2e rfl)
  · rfl

theorem componentNs_nil (h : whole * ns ≤ Whole.half64) (hns : 1 ≤ ns) :
    componentNs whole [] ns = some (whole * ns) := by
  have hdiv : ¬ Whole.half64 / ns < whole := not_lt.mpr ((Nat.le_div_iff_mul_le hns).mpr h)
  simp [componentNs, hdiv, leadingFraction, h]

/-- **A number with its unit is read back**, and what follows it is left. -/
theorem component?_amount (a : Amount) (hrest : DigitHead rest) (hfit : a.worth ≤ Whole.half64) :
    component? (a.text.bytes ++ rest) = some (a.worth, rest) := by
  obtain ⟨hne, hname, hns⟩ := a.unit.bounds
  have hhead : ∀ b ∈ (a.unit.name.bytes ++ rest).head?, b ≠ 0x2e ∧ Whole.isDigit b = false := by
    obtain ⟨c, cs, hcs⟩ := List.exists_cons_of_ne_nil hne
    rw [hcs, List.cons_append, List.head?_cons]
    rintro b ⟨⟩
    exact isUnitByte_iff.mp (hname c (hcs ▸ List.mem_cons_self))
  have hcount : ¬ Whole.half64 < a.count :=
    not_lt.mpr ((Nat.le_mul_of_pos_right a.count hns).trans hfit)
  obtain ⟨htake, hdrop⟩ :=
    takeWhile_append_eq (fun _ hb => Text.isDigit_of_mem_ofNat (n := a.count) hb)
      fun b hb => (hhead b hb).2
  obtain ⟨htakeName, hdropName⟩ :=
    takeWhile_append_eq hname fun b hb => isUnitByte_of_isDigit (hrest b hb)
  have hpart := splitPart_of_ne fun b hb => (hhead b hb).1
  have hvalue := componentNs_nil hfit hns
  rw [Amount.bytes_text, List.append_assoc, component?, htake, hdrop, hpart]
  simp [Text.bytes_ofNat_ne_nil, Text.digitsValue_ofNat, hcount, htakeName,
    hdropName, a.unit.known, hvalue, Amount.worth]

/-! ## One after the other -/

/-- Numbers with their units, one after the other. -/
def amountsText (as : List Amount) : Text := Text.concat (as.map Amount.text)

/-- The nanoseconds that numbers stand for together. -/
def amountsWorth : List Amount → ℕ
  | [] => 0
  | a :: as => a.worth + amountsWorth as

variable {a : Amount} {as : List Amount}

@[simp] theorem amountsText_nil : amountsText [] = ∅ := rfl

@[simp] theorem amountsText_cons : amountsText (a :: as) = a.text ++ amountsText as := rfl

@[simp] theorem amountsWorth_nil : amountsWorth [] = 0 := rfl

@[simp] theorem amountsWorth_cons : amountsWorth (a :: as) = a.worth + amountsWorth as := rfl

/-- What is zero is worth nothing. -/
theorem amountsWorth_filter (as : List Amount) :
    amountsWorth (as.filter (0 < ·.count)) = amountsWorth as := by
  induction as with
  | nil => rfl
  | cons a as ih =>
    rw [List.filter_cons, amountsWorth_cons]
    split_ifs with hpos
    · rw [amountsWorth_cons, ih]
    · have hzero : a.count = 0 := by simpa using hpos
      rw [ih, Amount.worth, hzero, Nat.zero_mul, Nat.zero_add]

theorem digitHead_amountsText (as : List Amount) : DigitHead (amountsText as).bytes := by
  cases as with
  | nil => rintro b ⟨⟩
  | cons a as => exact digitHead_amount a _

/-- **Numbers with units add up**, as long as the sum fits. -/
theorem total?_amountsText (h : sum + amountsWorth as ≤ Whole.half64) :
    total? sum (amountsText as).bytes = some (sum + amountsWorth as) := by
  induction as generalizing sum with
  | nil =>
    rw [total?]
    rfl
  | cons a as ih =>
    rw [amountsWorth_cons] at h ⊢
    have htwo := two_le_length_text a
    have hlength : (amountsText as).bytes.length <
        (a.text.bytes ++ (amountsText as).bytes).length := by
      rw [List.length_append]
      omega
    have hempty : ¬ (a.text.bytes ++ (amountsText as).bytes).isEmpty = true := by
      rw [List.isEmpty_iff_length_eq_zero]
      omega
    have hfits : ¬ Whole.half64 < sum + a.worth := by omega
    have hhalf : 0 < Whole.half64 := by decide
    have hwraps : (sum + a.worth) % (2 * Whole.half64) = sum + a.worth :=
      Nat.mod_eq_of_lt (by omega)
    rw [amountsText_cons, Text.bytes_append, total?, if_neg hempty,
      component?_amount a (digitHead_amountsText as) (by omega)]
    dsimp only
    rw [hwraps, if_neg hfits, if_pos hlength, ih (by omega), Nat.add_assoc]

/-- **A text of numbers with units is read back** as what they stand for together. -/
theorem read?_amountsText (hne : as ≠ []) (h : amountsWorth as < Whole.half64) :
    read? (amountsText as) = some (ofInt (amountsWorth as)) := by
  obtain ⟨a, as, rfl⟩ := List.exists_cons_of_ne_nil hne
  have htotal : total? 0 (amountsText (a :: as)).bytes = some (0 + amountsWorth (a :: as)) :=
    total?_amountsText (by omega)
  have hsign := Whole.splitSign_of_head? (digitHead_amountsText (a :: as))
  have htwo : 2 ≤ (amountsText (a :: as)).bytes.length := by
    rw [amountsText_cons, Text.bytes_append, List.length_append]
    exact Nat.le_add_right_of_le (two_le_length_text a)
  have hzero : ¬ ((amountsText (a :: as)).bytes == [0x30]) = true := by
    intro heq
    rw [eq_of_beq heq] at htwo
    exact absurd htwo (by decide)
  have hempty : ¬ (amountsText (a :: as)).bytes.isEmpty = true := by
    rw [List.isEmpty_iff_length_eq_zero]
    omega
  rw [read?, hsign]
  dsimp only
  rw [if_neg hzero, if_neg hempty, htotal, Nat.zero_add]
  simp only [Bool.false_eq_true, if_false, if_pos h]

end Stopwatch.Duration
