import Mathlib.Data.List.TakeWhile
import Mathlib.Tactic.SplitIfs
import Stopwatch.Text.Fold

/-!
# Runes and the bytes they were read from

Reading a text as characters loses nothing: the runes of a text spell it again (`ofRunes_runes`). So
trimming a text that has no white space leaves it as it is (`trim_eq_self`), and a text that
consists of small ASCII letters once its case is folded is one of these (`trim_eq_self_of_lower`).
-/

namespace Stopwatch.Text

/-! ## One rune -/

theorem toNat_ofNat {n : Nat} (h : n.isValidChar) : (Char.ofNat n).val.toNat = n := by
  unfold Char.ofNat
  rw [dif_pos h]
  rfl

theorem encode_two {a b : UInt8} (ha : 0xc2 ≤ a.toNat ∧ a.toNat ≤ 0xdf)
    (hb : 0x80 ≤ b.toNat ∧ b.toNat ≤ 0xbf) :
    String.utf8EncodeChar (Char.ofNat (a.toNat % 32 * 64 + tailBits b)) = [a, b] := by
  have hvalid : (a.toNat % 32 * 64 + b.toNat % 64).isValidChar := by left; omega
  have h1 : (a.toNat % 32 * 64 + b.toNat % 64) / 64 % 32 + 192 = a.toNat := by omega
  have h2 : (a.toNat % 32 * 64 + b.toNat % 64) % 64 + 128 = b.toNat := by omega
  unfold String.utf8EncodeChar tailBits
  simp only [toNat_ofNat hvalid]
  rw [if_neg (by omega), if_pos (by omega), h1, h2, UInt8.ofNat_toNat, UInt8.ofNat_toNat]

theorem encode_three {a b c : UInt8} (ha : 0xe0 ≤ a.toNat ∧ a.toNat ≤ 0xef)
    (hb : 0x80 ≤ b.toNat ∧ b.toNat ≤ 0xbf) (hc : 0x80 ≤ c.toNat ∧ c.toNat ≤ 0xbf)
    (hfirst : a.toNat = 0xe0 → 0xa0 ≤ b.toNat) (hsurrogate : a.toNat = 0xed → b.toNat ≤ 0x9f) :
    String.utf8EncodeChar (Char.ofNat ((a.toNat % 16 * 64 + tailBits b) * 64 + tailBits c)) =
      [a, b, c] := by
  have hvalid : ((a.toNat % 16 * 64 + b.toNat % 64) * 64 + c.toNat % 64).isValidChar := by
    unfold Nat.isValidChar
    omega
  have h1 : ((a.toNat % 16 * 64 + b.toNat % 64) * 64 + c.toNat % 64) / 4096 % 16 + 224 =
      a.toNat := by omega
  have h2 : ((a.toNat % 16 * 64 + b.toNat % 64) * 64 + c.toNat % 64) / 64 % 64 + 128 =
      b.toNat := by omega
  have h3 : ((a.toNat % 16 * 64 + b.toNat % 64) * 64 + c.toNat % 64) % 64 + 128 =
      c.toNat := by omega
  unfold String.utf8EncodeChar tailBits
  simp only [toNat_ofNat hvalid]
  rw [if_neg (by omega), if_neg (by omega), if_pos (by omega), h1, h2, h3]
  simp only [UInt8.ofNat_toNat]

theorem encode_four {a b c d : UInt8} (ha : 0xf0 ≤ a.toNat ∧ a.toNat ≤ 0xf4)
    (hb : 0x80 ≤ b.toNat ∧ b.toNat ≤ 0xbf) (hc : 0x80 ≤ c.toNat ∧ c.toNat ≤ 0xbf)
    (hd : 0x80 ≤ d.toNat ∧ d.toNat ≤ 0xbf)
    (hfirst : a.toNat = 0xf0 → 0x90 ≤ b.toNat) (hlast : a.toNat = 0xf4 → b.toNat ≤ 0x8f) :
    String.utf8EncodeChar
      (Char.ofNat (((a.toNat % 8 * 64 + tailBits b) * 64 + tailBits c) * 64 + tailBits d)) =
      [a, b, c, d] := by
  have hvalid : (((a.toNat % 8 * 64 + b.toNat % 64) * 64 + c.toNat % 64) * 64 +
      d.toNat % 64).isValidChar := by
    unfold Nat.isValidChar
    omega
  have h1 : (((a.toNat % 8 * 64 + b.toNat % 64) * 64 + c.toNat % 64) * 64 + d.toNat % 64) /
      262144 % 8 + 240 = a.toNat := by omega
  have h2 : (((a.toNat % 8 * 64 + b.toNat % 64) * 64 + c.toNat % 64) * 64 + d.toNat % 64) /
      4096 % 64 + 128 = b.toNat := by omega
  have h3 : (((a.toNat % 8 * 64 + b.toNat % 64) * 64 + c.toNat % 64) * 64 + d.toNat % 64) /
      64 % 64 + 128 = c.toNat := by omega
  have h4 : (((a.toNat % 8 * 64 + b.toNat % 64) * 64 + c.toNat % 64) * 64 +
      d.toNat % 64) % 64 + 128 = d.toNat := by omega
  unfold String.utf8EncodeChar tailBits
  simp only [toNat_ofNat hvalid]
  rw [if_neg (by omega), if_neg (by omega), if_neg (by omega), h1, h2, h3, h4]
  simp only [UInt8.ofNat_toNat]

theorem isTail_iff {b : UInt8} : isTail b = true ↔ 0x80 ≤ b.toNat ∧ b.toNat ≤ 0xbf := by
  simp [isTail, UInt8.le_iff_toNat_le]

/-- **A rune is written with the bytes that it was read from.** -/
theorem encode_readRune (a : UInt8) (rest : List UInt8) :
    (readRune a rest).1.encode = a :: rest.take (readRune a rest).2 := by
  unfold readRune
  split_ifs with h1 h2 h3 h4
  · have hlt : a.toNat < 128 := h1
    have hvalid : a.toNat.isValidChar := by left; omega
    simp only [Rune.encode, String.utf8EncodeChar, toNat_ofNat hvalid, List.take_zero]
    rw [if_pos (by omega), UInt8.ofNat_toNat]
  · split
    · split_ifs with hb
      · exact encode_two h2 (isTail_iff.mp hb)
      · rfl
    · rfl
  · split
    · next b c _ =>
      simp only
      split_ifs with hbc
      · obtain ⟨hlo, hhi, hc⟩ := hbc
        -- The second byte is bounded more tightly after two of the first bytes.
        unfold secondOfThree at hlo hhi
        simp only [UInt8.le_iff_toNat_le, beq_iff_eq, ← UInt8.toNat_inj] at hlo hhi h3
        refine encode_three h3 ?_ (isTail_iff.mp hc) ?_ ?_ <;>
          split_ifs at hlo hhi <;> simp_all <;> omega
      · rfl
    · rfl
  · split
    · next b c d _ =>
      simp only
      split_ifs with hbcd
      · obtain ⟨hlo, hhi, hc, hd⟩ := hbcd
        unfold secondOfFour at hlo hhi
        simp only [UInt8.le_iff_toNat_le, beq_iff_eq, ← UInt8.toNat_inj] at hlo hhi h4
        refine encode_four h4 ?_ (isTail_iff.mp hc) (isTail_iff.mp hd) ?_ ?_ <;>
          split_ifs at hlo hhi <;> simp_all <;> omega
      · rfl
    · rfl
  · rfl

/-! ## All runes -/

theorem flatMap_encode_decodeFrom (n : Nat) (bs : List UInt8) :
    (decodeFrom n bs).flatMap Rune.encode = bs.drop n := by
  induction bs generalizing n with
  | nil => simp [decodeFrom]
  | cons a rest ih =>
    cases n with
    | zero =>
      rw [decodeFrom, List.flatMap_cons, encode_readRune, ih,
        List.cons_append, List.take_append_drop,
        List.drop_zero]
    | succ n => rw [decodeFrom, ih, List.drop_succ_cons]

/-- **The runes of a text spell it again.** -/
theorem ofRunes_runes (t : Text) : ofRunes t.runes = t :=
  congrArg Text.mk (flatMap_encode_decodeFrom 0 t.bytes)

/-! ## White space and small letters -/

theorem trim_eq_self {t : Text} (h : ∀ r ∈ t.runes, isBlank r = false) : t.trim = t := by
  have hdrop : ∀ rs : List Rune, (∀ r ∈ rs, isBlank r = false) → rs.dropWhile isBlank = rs := by
    intro rs hrs
    exact List.dropWhile_eq_self_iff.mpr fun hpos => by simp [hrs _ (List.getElem_mem hpos)]
  unfold trim
  rw [hdrop _ h, hdrop _ fun r hr => h r (List.mem_reverse.mp hr),
    List.reverse_reverse, ofRunes_runes]

/-- The bytes of a small ASCII letter. -/
def isSmallLetter (b : UInt8) : Bool := 0x61 ≤ b ∧ b ≤ 0x7a

theorem bounds_of_isBlankCode {n : Nat} (h : isBlankCode n = true) :
    (n ≤ 0x20 ∨ 0x85 ≤ n) ∧ n ≠ 0x130 ∧ n ≠ 0x212a := by
  simp [isBlankCode] at h
  omega

/-- White space has no letter case. -/
theorem lowerChar_of_blank {c : Char} (h : isBlankCode c.toNat = true) : lowerChar c = c := by
  obtain ⟨hbounds, h1, h2⟩ := bounds_of_isBlankCode h
  have hcapital : ¬ (c.val ≥ 'A'.val ∧ c.val ≤ 'Z'.val) := by
    rintro ⟨hlo, hhi⟩
    have hlo : 0x41 ≤ c.toNat := hlo
    have hhi : c.toNat ≤ 0x5a := hhi
    omega
  unfold lowerChar
  rw [if_neg (mt beq_iff_eq.mp h1), if_neg (mt beq_iff_eq.mp h2)]
  exact dif_neg hcapital

/-- A character that is no small letter itself has no byte of one. -/
theorem isSmallLetter_of_mem_encode {c : Char} (h : c.toNat < 0x61 ∨ 0x7a < c.toNat) {b : UInt8}
    (hb : b ∈ String.utf8EncodeChar c) : isSmallLetter b = false := by
  have hv : c.val.toNat = c.toNat := rfl
  unfold String.utf8EncodeChar at hb
  simp only [hv] at hb
  rw [isSmallLetter, decide_eq_false_iff_not, UInt8.le_iff_toNat_le, UInt8.le_iff_toNat_le]
  split_ifs at hb <;> simp only [List.mem_cons, List.not_mem_nil, or_false] at hb <;>
    rcases hb with rfl | rfl | rfl | rfl <;> simp <;> omega

theorem trim_eq_self_of_lower {t : Text} (h : ∀ b ∈ t.lower.bytes, isSmallLetter b = true) :
    t.trim = t := by
  refine trim_eq_self fun r hr => Bool.eq_false_iff.mpr fun hblank => ?_
  cases r with
  | stray b => simp [isBlank, isBlankCode, Rune.code] at hblank
  | char c =>
    -- White space would leave its bytes in the folded text.
    have hbounds : c.toNat ≤ 0x20 ∨ 0x85 ≤ c.toNat := (bounds_of_isBlankCode hblank).1
    obtain ⟨b, hb⟩ : ∃ b, b ∈ String.utf8EncodeChar c :=
      List.exists_mem_of_length_pos (by rw [String.length_utf8EncodeChar]; exact c.utf8Size_pos)
    have hmem : b ∈ t.lower.bytes := by
      refine List.mem_flatMap.mpr ⟨.char (lowerChar c), List.mem_map.mpr ⟨.char c, hr, rfl⟩, ?_⟩
      rwa [lowerChar_of_blank hblank]
    have hsmall : isSmallLetter b = false := isSmallLetter_of_mem_encode (by omega) hb
    exact Bool.noConfusion ((h b hmem).symm.trans hsmall)

end Stopwatch.Text
