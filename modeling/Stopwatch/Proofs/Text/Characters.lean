import Stopwatch.Decimal.Whole
import Stopwatch.Proofs.Text.Runes

/-!
# Characters that are written and read again

What is written character by character is read as these characters (`runes_ofChars`), so trimming a
text that is spelled out takes away exactly the white space around it (`trim_surrounded`). A natural
number is written with decimal digits, one byte each, and these spell it (`digitsValue_ofNat`).
-/

namespace Stopwatch.Text

/-! ## One character -/

theorem readRune_one {a : UInt8} (ha : a.toNat < 0x80) (rest : List UInt8) :
    readRune a rest = (.char (Char.ofNat a.toNat), 0) := by
  have h : a < 0x80 := ha
  unfold readRune
  rw [if_pos h]

theorem readRune_two {a b : UInt8} (ha : 0xc2 ≤ a.toNat ∧ a.toNat ≤ 0xdf)
    (hb : 0x80 ≤ b.toNat ∧ b.toNat ≤ 0xbf) (rest : List UInt8) :
    readRune a (b :: rest) = (.char (Char.ofNat (a.toNat % 32 * 64 + tailBits b)), 1) := by
  have h1 : ¬ a < 0x80 := by
    intro (h : a.toNat < 0x80)
    omega
  have h2 : 0xc2 ≤ a ∧ a ≤ 0xdf := ha
  rw [readRune, if_neg h1, if_pos h2]
  simp only [isTail_iff.mpr hb, if_true]

theorem readRune_three {a b c : UInt8} (ha : 0xe0 ≤ a.toNat ∧ a.toNat ≤ 0xef)
    (hb : 0x80 ≤ b.toNat ∧ b.toNat ≤ 0xbf) (hc : 0x80 ≤ c.toNat ∧ c.toNat ≤ 0xbf)
    (hfirst : a.toNat = 0xe0 → 0xa0 ≤ b.toNat) (hsurrogate : a.toNat = 0xed → b.toNat ≤ 0x9f)
    (rest : List UInt8) :
    readRune a (b :: c :: rest) =
      (.char (Char.ofNat ((a.toNat % 16 * 64 + tailBits b) * 64 + tailBits c)), 2) := by
  have h1 : ¬ a < 0x80 := by
    intro (h : a.toNat < 0x80)
    omega
  have h2 : ¬ (0xc2 ≤ a ∧ a ≤ 0xdf) := by
    rintro ⟨-, h : a.toNat ≤ 0xdf⟩
    omega
  have h3 : 0xe0 ≤ a ∧ a ≤ 0xef := ha
  have hbounds : (secondOfThree a).1 ≤ b ∧ b ≤ (secondOfThree a).2 := by
    unfold secondOfThree
    simp only [UInt8.le_iff_toNat_le, beq_iff_eq, ← UInt8.toNat_inj]
    split_ifs with he0 hed
    · exact ⟨hfirst he0, hb.2⟩
    · exact ⟨hb.1, hsurrogate hed⟩
    · exact hb
  rw [readRune, if_neg h1, if_neg h2, if_pos h3]
  simp only [hbounds, isTail_iff.mpr hc, and_self, if_true]

theorem readRune_four {a b c d : UInt8} (ha : 0xf0 ≤ a.toNat ∧ a.toNat ≤ 0xf4)
    (hb : 0x80 ≤ b.toNat ∧ b.toNat ≤ 0xbf) (hc : 0x80 ≤ c.toNat ∧ c.toNat ≤ 0xbf)
    (hd : 0x80 ≤ d.toNat ∧ d.toNat ≤ 0xbf)
    (hfirst : a.toNat = 0xf0 → 0x90 ≤ b.toNat) (hlast : a.toNat = 0xf4 → b.toNat ≤ 0x8f)
    (rest : List UInt8) :
    readRune a (b :: c :: d :: rest) =
      (.char (Char.ofNat (((a.toNat % 8 * 64 + tailBits b) * 64 + tailBits c) * 64 + tailBits d)),
        3) := by
  have h1 : ¬ a < 0x80 := by
    intro (h : a.toNat < 0x80)
    omega
  have h2 : ¬ (0xc2 ≤ a ∧ a ≤ 0xdf) := by
    rintro ⟨-, h : a.toNat ≤ 0xdf⟩
    omega
  have h3 : ¬ (0xe0 ≤ a ∧ a ≤ 0xef) := by
    rintro ⟨-, h : a.toNat ≤ 0xef⟩
    omega
  have h4 : 0xf0 ≤ a ∧ a ≤ 0xf4 := ha
  have hbounds : (secondOfFour a).1 ≤ b ∧ b ≤ (secondOfFour a).2 := by
    unfold secondOfFour
    simp only [UInt8.le_iff_toNat_le, beq_iff_eq, ← UInt8.toNat_inj]
    split_ifs with hf0 hf4
    · exact ⟨hfirst hf0, hb.2⟩
    · exact ⟨hb.1, hlast hf4⟩
    · exact hb
  rw [readRune, if_neg h1, if_neg h2, if_neg h3, if_pos h4]
  simp only [hbounds, isTail_iff.mpr hc, isTail_iff.mpr hd, and_self, if_true]

theorem toNat_ofNat_of_lt {n : ℕ} (h : n < 256) : (UInt8.ofNat n).toNat = n := by
  rw [UInt8.toNat_ofNat', Nat.mod_eq_of_lt h]

/-- **A character is read from the bytes that it is written with.** -/
theorem readRune_encode (c : Char) (rest : List UInt8) :
    ∃ a tail, String.utf8EncodeChar c = a :: tail ∧
      readRune a (tail ++ rest) = (.char c, tail.length) := by
  have hchar : Char.ofNat c.val.toNat = c := Char.ofNat_toNat c
  have hvalid : c.val.toNat < 0xd800 ∨ 0xdfff < c.val.toNat ∧ c.val.toNat < 0x110000 := c.valid
  unfold String.utf8EncodeChar
  dsimp only
  generalize c.val.toNat = v at hchar hvalid
  split_ifs with h1 h2 h3
  · refine ⟨_, _, rfl, ?_⟩
    rw [readRune_one (by rw [toNat_ofNat_of_lt] <;> omega), toNat_ofNat_of_lt (by omega), hchar]
    rfl
  · refine ⟨_, _, rfl, ?_⟩
    have ha := toNat_ofNat_of_lt (n := v / 64 % 32 + 192) (by omega)
    have hb := toNat_ofNat_of_lt (n := v % 64 + 128) (by omega)
    have hv : (v / 64 % 32 + 192) % 32 * 64 + (v % 64 + 128) % 64 = v := by omega
    rw [List.cons_append, readRune_two (by omega) (by omega), tailBits, ha, hb, hv, hchar]
    rfl
  · refine ⟨_, _, rfl, ?_⟩
    have ha := toNat_ofNat_of_lt (n := v / 4096 % 16 + 224) (by omega)
    have hb := toNat_ofNat_of_lt (n := v / 64 % 64 + 128) (by omega)
    have hc := toNat_ofNat_of_lt (n := v % 64 + 128) (by omega)
    have hv : ((v / 4096 % 16 + 224) % 16 * 64 + (v / 64 % 64 + 128) % 64) * 64 +
      (v % 64 + 128) % 64 = v := by omega
    rw [List.cons_append, List.cons_append,
      readRune_three (by omega) (by omega) (by omega) (by omega) (by omega), tailBits,
      tailBits, ha, hb, hc, hv, hchar]
    rfl
  · refine ⟨_, _, rfl, ?_⟩
    have ha := toNat_ofNat_of_lt (n := v / 262144 % 8 + 240) (by omega)
    have hb := toNat_ofNat_of_lt (n := v / 4096 % 64 + 128) (by omega)
    have hc := toNat_ofNat_of_lt (n := v / 64 % 64 + 128) (by omega)
    have hd := toNat_ofNat_of_lt (n := v % 64 + 128) (by omega)
    have hv : (((v / 262144 % 8 + 240) % 8 * 64 + (v / 4096 % 64 + 128) % 64) * 64 +
        (v / 64 % 64 + 128) % 64) * 64 +
        (v % 64 + 128) % 64 = v := by omega
    rw [List.cons_append, List.cons_append, List.cons_append,
      readRune_four (by omega) (by omega) (by omega) (by omega) (by omega) (by omega),
      tailBits, tailBits, tailBits, ha,
      hb, hc, hd, hv, hchar]
    rfl

/-! ## All characters -/

theorem decodeFrom_length (tail rest : List UInt8) :
    decodeFrom tail.length (tail ++ rest) = decodeFrom 0 rest := by
  induction tail with
  | nil => rfl
  | cons b tail ih => rw [List.length_cons, List.cons_append, decodeFrom, ih]

theorem decodeFrom_flatMap (cs : List Char) :
    decodeFrom 0 (cs.flatMap String.utf8EncodeChar) = cs.map Rune.char := by
  induction cs with
  | nil => rfl
  | cons c cs ih =>
    obtain ⟨a, tail, henc, hread⟩ := readRune_encode c (cs.flatMap String.utf8EncodeChar)
    rw [List.flatMap_cons, henc, List.cons_append, decodeFrom, hread,
      decodeFrom_length, ih, List.map_cons]

/-- **What is written character by character is read as these characters.** -/
theorem runes_ofChars (cs : List Char) : (ofChars cs).runes = cs.map Rune.char :=
  decodeFrom_flatMap cs

theorem ofChars_append (cs ds : List Char) : ofChars (cs ++ ds) = ofChars cs ++ ofChars ds :=
  congrArg Text.mk List.flatMap_append

theorem ofRunes_map_char (cs : List Char) : ofRunes (cs.map Rune.char) = ofChars cs := by
  unfold ofRunes ofChars
  rw [List.flatMap_map]
  rfl

/-! ## White space around a text -/

theorem dropWhile_blank_append {blank cs : List Char}
    (hblank : ∀ c ∈ blank, isBlankCode c.toNat = true)
    (hcs : ∀ c ∈ cs.head?, isBlankCode c.toNat = false) :
    ((blank ++ cs).map Rune.char).dropWhile isBlank = cs.map Rune.char := by
  induction blank with
  | nil =>
    cases cs with
    | nil => rfl
    | cons c cs =>
      have hc : ¬ isBlank (.char c) = true := by simpa [isBlank, Rune.code] using hcs
      exact List.dropWhile_cons_of_neg hc
  | cons c blank ih =>
    obtain ⟨hc, hblank⟩ := List.forall_mem_cons.mp hblank
    have hc : isBlank (.char c) = true := hc
    rw [List.cons_append, List.map_cons, List.dropWhile_cons_of_pos hc]
    exact ih hblank

/-- **Trimming takes away the white space around a text**, and nothing of the text. -/
theorem trim_surrounded {before cs after : List Char}
    (hbefore : ∀ c ∈ before, isBlankCode c.toNat = true)
    (hafter : ∀ c ∈ after, isBlankCode c.toNat = true) (hne : cs ≠ [])
    (hcs : ∀ c ∈ cs, isBlankCode c.toNat = false) :
    (ofChars before ++ ofChars cs ++ ofChars after).trim = ofChars cs := by
  have hfirst : ∀ c ∈ (cs ++ after).head?, isBlankCode c.toNat = false := by
    intro c hc
    obtain ⟨d, ds, rfl⟩ := List.exists_cons_of_ne_nil hne
    exact hcs c (List.mem_of_mem_head? hc)
  have hlast : ∀ c ∈ cs.reverse.head?, isBlankCode c.toNat = false := by
    intro c hc
    exact hcs c (List.mem_reverse.mp (List.mem_of_mem_head? hc))
  have hblank : ∀ c ∈ after.reverse, isBlankCode c.toNat = true := by
    intro c hc
    exact hafter c (List.mem_reverse.mp hc)
  unfold trim
  rw [← ofChars_append, ← ofChars_append, runes_ofChars, List.append_assoc,
    dropWhile_blank_append hbefore hfirst, ← List.map_reverse, List.reverse_append,
    dropWhile_blank_append hblank hlast, ← List.map_reverse,
    List.reverse_reverse, ofRunes_map_char]

/-! ## Numbers -/

theorem ofNat_eq_ofChars (n : ℕ) : ofNat n = ofChars (Nat.toDigits 10 n) := by
  unfold ofNat ofString ofChars
  rw [Nat.toString_eq_ofList_toDigits, String.toList_ofList]

theorem bounds_of_mem_toDigits {n : ℕ} {c : Char} (h : c ∈ Nat.toDigits 10 n) :
    0x30 ≤ c.toNat ∧ c.toNat ≤ 0x39 := by
  have hdigit := Nat.isDigit_of_mem_toDigits (by decide) (by decide) h
  simpa [Char.isDigit, UInt32.le_iff_toNat_le] using hdigit

theorem isBlankCode_of_mem_toDigits {n : ℕ} {c : Char} (h : c ∈ Nat.toDigits 10 n) :
    isBlankCode c.toNat = false := by
  have hbounds := bounds_of_mem_toDigits h
  rw [Bool.eq_false_iff]
  intro hblank
  have := (bounds_of_isBlankCode hblank).1
  omega

theorem utf8EncodeChar_ascii {c : Char} (h : c.toNat < 0x80) :
    String.utf8EncodeChar c = [byteOf c] := by
  have hv : c.val.toNat = c.toNat := rfl
  simp only [String.utf8EncodeChar, hv]
  rw [if_pos (by omega)]
  rfl

theorem flatMap_utf8EncodeChar_ascii {cs : List Char} (h : ∀ c ∈ cs, c.toNat < 0x80) :
    cs.flatMap String.utf8EncodeChar = cs.map byteOf := by
  induction cs with
  | nil => rfl
  | cons c cs ih =>
    obtain ⟨hc, hcs⟩ := List.forall_mem_cons.mp h
    rw [List.flatMap_cons, utf8EncodeChar_ascii hc, ih hcs]
    rfl

/-- A natural number is written with one byte for each digit. -/
theorem bytes_ofNat (n : ℕ) : (ofNat n).bytes = (Nat.toDigits 10 n).map byteOf := by
  rw [ofNat_eq_ofChars]
  refine flatMap_utf8EncodeChar_ascii ?_
  intro c hc
  have hbounds := bounds_of_mem_toDigits hc
  omega

theorem toNat_byteOf {c : Char} (h : c.toNat < 0x80) : (byteOf c).toNat = c.toNat :=
  toNat_ofNat_of_lt (by omega)

theorem isDigit_of_mem_ofNat {n : ℕ} {b : UInt8} (h : b ∈ (ofNat n).bytes) :
    Whole.isDigit b = true := by
  rw [bytes_ofNat] at h
  obtain ⟨c, hc, rfl⟩ := List.mem_map.mp h
  have hbounds := bounds_of_mem_toDigits hc
  have hbyte := toNat_byteOf (c := c) (by omega)
  rw [Whole.isDigit, decide_eq_true_iff, UInt8.le_iff_toNat_le, UInt8.le_iff_toNat_le, hbyte]
  exact hbounds

theorem bytes_ofNat_ne_nil (n : ℕ) : (ofNat n).bytes ≠ [] := by
  rw [bytes_ofNat]
  simp

theorem foldl_map_byteOf {cs : List Char} (h : ∀ c ∈ cs, c.toNat < 0x80) (acc : ℕ) :
    (cs.map byteOf).foldl (fun acc b => acc * 10 + (b.toNat - 0x30)) acc =
      Nat.ofDigitChars 10 cs acc := by
  induction cs generalizing acc with
  | nil => rfl
  | cons c cs ih =>
    obtain ⟨hc, hcs⟩ := List.forall_mem_cons.mp h
    rw [List.map_cons, List.foldl_cons, toNat_byteOf hc, ih hcs,
      Nat.ofDigitChars_cons, Nat.mul_comm]
    rfl

/-- **The digits of a natural number spell it.** -/
theorem digitsValue_ofNat (n : ℕ) : Whole.digitsValue (ofNat n).bytes = n := by
  unfold Whole.digitsValue
  rw [bytes_ofNat, foldl_map_byteOf, Nat.ofDigitChars_ten_toDigits]
  intro c hc
  have hbounds := bounds_of_mem_toDigits hc
  omega

end Stopwatch.Text
