import Mathlib.Data.List.Induction
import Stopwatch.Proofs.Text.Characters

/-!
# Texts put together

A text is read up to a place as if nothing came after it, unless what comes after it goes on with a
character that the text breaks off (`readRune_append`). So two texts that are put together have the
runes of both in a row (`runes_append`), and ASCII text has one rune for each byte
(`runes_of_ascii`).

Lines that are each ended by a line break are found again (`lines_unlines`).
-/

namespace Stopwatch.Text

variable {a b : UInt8} {as bs : List UInt8} {s t : Text}

/-! ## Runes -/

/-- What may be the second byte of three goes on with a character. -/
theorem isTail_of_secondOfThree (h : (secondOfThree a).1 ≤ b ∧ b ≤ (secondOfThree a).2) :
    isTail b = true := by
  unfold secondOfThree at h
  simp only [UInt8.le_iff_toNat_le, beq_iff_eq] at h
  rw [isTail_iff]
  split_ifs at h <;> simp only [UInt8.reduceToNat] at h <;> omega

/-- What may be the second byte of four goes on with a character. -/
theorem isTail_of_secondOfFour (h : (secondOfFour a).1 ≤ b ∧ b ≤ (secondOfFour a).2) :
    isTail b = true := by
  unfold secondOfFour at h
  simp only [UInt8.le_iff_toNat_le, beq_iff_eq] at h
  rw [isTail_iff]
  split_ifs at h <;> simp only [UInt8.reduceToNat] at h <;> omega

/-- A rune ends before a byte that goes on with no character. -/
theorem readRune_append (a : UInt8) (as : List UInt8) (h : ∀ b ∈ bs.head?, isTail b = false) :
    readRune a (as ++ bs) = readRune a as := by
  cases bs with
  | nil => rw [List.append_nil]
  | cons b bs =>
    have hb : ¬ isTail b = true := by simpa using h
    unfold readRune
    split_ifs with h1 h2 h3 h4
    · rfl
    · cases as <;> simp [hb]
    · have hsecond : ∀ q, ¬ ((secondOfThree a).1 ≤ b ∧ b ≤ (secondOfThree a).2 ∧ q) :=
        fun q hq => hb (isTail_of_secondOfThree ⟨hq.1, hq.2.1⟩)
      rcases as with _ | ⟨c, _ | ⟨d, as⟩⟩
      · rcases bs with _ | ⟨c, bs⟩
        · rfl
        · exact if_neg (hsecond _)
      · simp [hb]
      · rfl
    · have hsecond : ∀ q, ¬ ((secondOfFour a).1 ≤ b ∧ b ≤ (secondOfFour a).2 ∧ q) :=
        fun q hq => hb (isTail_of_secondOfFour ⟨hq.1, hq.2.1⟩)
      rcases as with _ | ⟨c, _ | ⟨d, _ | ⟨e, as⟩⟩⟩
      · rcases bs with _ | ⟨c, _ | ⟨d, bs⟩⟩
        · rfl
        · rfl
        · exact if_neg (hsecond _)
      · cases bs <;> simp [hb]
      · simp [hb]
      · rfl
    · rfl

/-- A rune has no more bytes than there are. -/
theorem readRune_snd_le (a : UInt8) (as : List UInt8) : (readRune a as).2 ≤ as.length := by
  unfold readRune
  split_ifs
  · exact Nat.zero_le _
  · rcases as with _ | ⟨c, as⟩
    · exact Nat.zero_le _
    · dsimp only
      split_ifs <;> simp
  · rcases as with _ | ⟨c, _ | ⟨d, as⟩⟩
    · exact Nat.zero_le _
    · exact Nat.zero_le _
    · dsimp only
      split_ifs <;> simp
  · rcases as with _ | ⟨c, _ | ⟨d, _ | ⟨e, as⟩⟩⟩
    · exact Nat.zero_le _
    · exact Nat.zero_le _
    · exact Nat.zero_le _
    · dsimp only
      split_ifs <;> simp
  · exact Nat.zero_le _

theorem decodeFrom_append (h : ∀ b ∈ bs.head?, isTail b = false) {n : ℕ} (hn : n ≤ as.length) :
    decodeFrom n (as ++ bs) = decodeFrom n as ++ decodeFrom 0 bs := by
  induction as generalizing n with
  | nil =>
    obtain rfl : n = 0 := by simpa using hn
    rfl
  | cons a as ih =>
    cases n with
    | zero =>
      rw [List.cons_append, decodeFrom, decodeFrom, readRune_append a as h,
        ih (readRune_snd_le a as),
        List.cons_append]
    | succ n => rw [List.cons_append, decodeFrom, decodeFrom, ih (by simpa using hn)]

/-- **Two texts put together have the runes of both**, if no character is broken off. -/
theorem runes_append (s : Text) (h : ∀ b ∈ t.bytes.head?, isTail b = false) :
    (s ++ t).runes = s.runes ++ t.runes :=
  decodeFrom_append h (Nat.zero_le _)

/-- The rune of an ASCII byte. -/
def asciiRune (b : UInt8) : Rune := .char (Char.ofNat b.toNat)

/-- Nothing is broken off after ASCII text. -/
theorem runes_append_of_ascii (h : ∀ b ∈ s.bytes, b.toNat < 0x80) (t : Text) :
    (s ++ t).runes = s.bytes.map asciiRune ++ t.runes := by
  obtain ⟨bytes⟩ := s
  show decodeFrom 0 (bytes ++ t.bytes) = bytes.map asciiRune ++ decodeFrom 0 t.bytes
  induction bytes with
  | nil => rfl
  | cons b bytes ih =>
    obtain ⟨hb, hbytes⟩ := List.forall_mem_cons.mp h
    rw [List.cons_append, decodeFrom, readRune_one hb, ih hbytes]
    rfl

theorem runes_of_ascii (h : ∀ b ∈ t.bytes, b.toNat < 0x80) : t.runes = t.bytes.map asciiRune := by
  have happend := runes_append_of_ascii h ∅
  rwa [append_empty, show (∅ : Text).runes = [] from rfl, List.append_nil] at happend

theorem runes_spaces (n : ℕ) : (spaces n).runes = List.replicate n (.char ' ') := by
  rw [runes_of_ascii, bytes_spaces, List.map_replicate]
  · rfl
  · intro b hb
    rw [(List.mem_replicate.mp hb).2]
    decide

/-! ## Lines -/

/-- There is no line break in the text. -/
def Unbroken (t : Text) : Prop := 0x0a ∉ t.bytes

instance (t : Text) : Decidable t.Unbroken := inferInstanceAs (Decidable (¬ _))

theorem Unbroken.append (hs : s.Unbroken) (ht : t.Unbroken) : (s ++ t).Unbroken := by
  rw [Unbroken, bytes_append, List.mem_append, not_or]
  exact ⟨hs, ht⟩

theorem unbroken_spaces (n : ℕ) : (spaces n).Unbroken := by
  intro h
  exact absurd (List.mem_replicate.mp h).2 (by decide)

theorem splitBytes_ne_nil (sep : UInt8) (bs : List UInt8) : splitBytes sep bs ≠ [] := by
  cases bs with
  | nil => simp [splitBytes]
  | cons b bs =>
    rw [splitBytes]
    cases splitBytes sep bs with
    | nil => simp
    | cons piece more =>
      dsimp only
      split_ifs <;> simp

/-- A piece without the separator is cut off before it. -/
theorem splitBytes_append {sep : UInt8} (h : sep ∉ as) (bs : List UInt8) :
    splitBytes sep (as ++ sep :: bs) = as :: splitBytes sep bs := by
  induction as with
  | nil =>
    rw [List.nil_append, splitBytes]
    obtain ⟨piece, more, hsplit⟩ := List.exists_cons_of_ne_nil (splitBytes_ne_nil sep bs)
    simp [hsplit]
  | cons a as ih =>
    rw [List.mem_cons, not_or] at h
    have hne : (a == sep) = false := by simpa using Ne.symm h.1
    rw [List.cons_append, splitBytes, ih h.2]
    simp [hne]

/-- Lines, each with its line break. -/
def unlines (ts : List Text) : Text := concat (ts.map (· ++ newline))

theorem splitBytes_unlines {ts : List Text} (h : ∀ t ∈ ts, t.Unbroken) :
    splitBytes 0x0a (unlines ts).bytes = ts.map bytes ++ [[]] := by
  induction ts with
  | nil => rfl
  | cons t ts ih =>
    obtain ⟨ht, hts⟩ := List.forall_mem_cons.mp h
    have hbytes : (unlines (t :: ts)).bytes = t.bytes ++ 0x0a :: (unlines ts).bytes := by
      simp [unlines, newline]
    rw [hbytes, splitBytes_append ht, ih hts]
    rfl

/-- **Lines that are each ended by a line break are found again.** -/
theorem lines_unlines {ts : List Text} (h : ∀ t ∈ ts, t.Unbroken) : (unlines ts).lines = ts := by
  cases ts using List.reverseRecOn with
  | nil => rfl
  | append_singleton earlier last =>
    have hbytes : (unlines (earlier ++ [last])).bytes = (unlines earlier).bytes ++
        last.bytes ++ [0x0a] := by
      simp [unlines, newline]
    have hempty : (unlines (earlier ++ [last])).isEmpty = false := by simp [isEmpty, hbytes]
    have hlast : (unlines (earlier ++ [last])).bytes.getLast? = some 0x0a := by simp [hbytes]
    have heta : Text.mk ∘ bytes = id := rfl
    rw [lines, hempty, split, splitBytes_unlines h, hlast]
    simp [heta]

end Stopwatch.Text
