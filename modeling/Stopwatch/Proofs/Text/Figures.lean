import Stopwatch.Proofs.Float.View
import Stopwatch.Proofs.Text.Characters
import Stopwatch.TimeUnit

/-!
# Floats that are written

A float is written with visible ASCII characters only, and with one of them at least
(`visible_fixedText`, `bytes_fixedText_ne_nil`), so its text has neither spaces nor line breaks. The
first character of a negative number is a minus sign (`head?_fixed_of_neg`), and that of a finite
number without a sign is a digit (`isDigit_head_fixed`).
-/

namespace Stopwatch.FloatText

/-- The byte is a visible ASCII character. -/
def Visible (b : UInt8) : Prop := 0x20 < b.toNat ∧ b.toNat < 0x80

instance (b : UInt8) : Decidable (Visible b) := inferInstanceAs (Decidable (_ ∧ _))

variable {x : Float} {places m n : ℕ} {e : ℤ} {b : UInt8}

/-! ## Digits -/

theorem visible_of_isDigit (h : Whole.isDigit b = true) : Visible b := by
  have hbounds : 0x30 ≤ b.toNat ∧ b.toNat ≤ 0x39 := of_decide_eq_true h
  exact ⟨by omega, by omega⟩

theorem lt_ten_of_mem_ofNat {d : ℕ} (h : d ∈ Digits.ofNat n) : d < 10 := by
  obtain ⟨c, hc, rfl⟩ := List.mem_map.mp h
  have hbounds := Text.bounds_of_mem_toDigits hc
  omega

theorem isDigit_of_mem_digitText {ds : List ℕ} (hds : ∀ d ∈ ds, d < 10)
    (h : b ∈ (digitText ds).bytes) :
    Whole.isDigit b = true := by
  obtain ⟨d, hd, rfl⟩ := List.mem_map.mp h
  have hlt := hds d hd
  have hbyte := Text.toNat_ofNat_of_lt (n := 0x30 + d) (by omega)
  rw [Whole.isDigit, decide_eq_true_iff, UInt8.le_iff_toNat_le, UInt8.le_iff_toNat_le, hbyte]
  exact ⟨Nat.le_add_right _ _, by show 0x30 + d ≤ 0x39; omega⟩

/-- Units are written with one digit at least, and the decimals behind a point. -/
theorem unitsText_eq (n places : ℕ) :
    ∃ d whole decimals, (∀ c ∈ d :: whole ++ decimals, c < 10) ∧
      unitsText n places =
        digitText (d :: whole) ++ if places == 0 then ∅ else "." ++ digitText decimals := by
  set ds := List.replicate (places + 1 - (Digits.ofNat n).length) 0 ++ Digits.ofNat n with hds
  have hlt : ∀ c ∈ ds, c < 10 := by
    intro c hc
    rcases List.mem_append.mp hc with hc | hc
    · rw [(List.mem_replicate.mp hc).2]
      decide
    · exact lt_ten_of_mem_ofNat hc
  -- There are more digits than decimals, so one stands before the point.
  have hlength : places < ds.length := by
    rw [hds, List.length_append, List.length_replicate]
    omega
  obtain ⟨d, whole, hwhole⟩ : ∃ d whole, ds.take (ds.length - places) = d :: whole := by
    refine List.exists_cons_of_ne_nil fun hnil => ?_
    have hzero := congrArg List.length hnil
    rw [List.length_take, List.length_nil] at hzero
    omega
  refine ⟨d, whole, ds.drop (ds.length - places), ?_, ?_⟩
  · rwa [← hwhole, List.take_append_drop]
  · rw [← hwhole, unitsText, ← hds, List.splitAt_eq]

theorem bytes_unitsText (n places : ℕ) :
    ∃ b rest, (unitsText n places).bytes = b :: rest ∧ Whole.isDigit b = true ∧
      ∀ c ∈ rest, Visible c := by
  obtain ⟨d, whole, decimals, hlt, htext⟩ := unitsText_eq n places
  obtain ⟨hwhole, hdecimals⟩ := List.forall_mem_append.mp hlt
  refine ⟨UInt8.ofNat (0x30 + d),
    _, by rw [htext]; rfl, isDigit_of_mem_digitText hwhole List.mem_cons_self, ?_⟩
  intro c hc
  rcases List.mem_append.mp hc with hc | hc
  · exact visible_of_isDigit (isDigit_of_mem_digitText hwhole (List.mem_cons_of_mem _ hc))
  · split_ifs at hc
    · exact absurd hc List.not_mem_nil
    · rcases List.mem_cons.mp hc with rfl | hc
      · decide
      · exact visible_of_isDigit (isDigit_of_mem_digitText hdecimals hc)

theorem bytes_fixedFinite (places m : ℕ) (e : ℤ) :
    ∃ b rest, (fixedFinite places m e).bytes = b :: rest ∧ Whole.isDigit b = true ∧
      ∀ c ∈ rest, Visible c := by
  obtain ⟨b, rest, hbytes, hdigit, hrest⟩ :=
    bytes_unitsText (Digits.fixedUnits m e (min places mostPlaces)) (min places mostPlaces)
  refine ⟨b, rest ++ (digitText (List.replicate (places - min places mostPlaces) 0)).bytes,
    ?_, hdigit, fun c hc => ?_⟩
  · rw [fixedFinite, Text.bytes_append, hbytes]
    rfl
  · rcases List.mem_append.mp hc with hc | hc
    · exact hrest c hc
    · refine visible_of_isDigit (isDigit_of_mem_digitText (fun d hd => ?_) hc)
      rw [(List.mem_replicate.mp hd).2]
      decide

/-! ## Numbers -/

theorem fixed_of_finite {negative : Bool}
    (hview : Binary.view x = .finite negative m e) (places : ℕ) :
    fixed places x = (if negative then ("-" : Text) else ∅) ++ fixedFinite places m e := by
  rw [fixed, hview]

/-- What is not finite is written with a word. -/
theorem fixed_of_not_finite (hview : ∀ negative m e, Binary.view x ≠ .finite negative m e) :
    ∃ word ∈ ([("NaN" : Text), "+Inf", "-Inf"] : List Text), ∀ places, fixed places x = word := by
  cases h : Binary.view x with
  | nan => exact ⟨"NaN", by simp, fun places => by rw [fixed, h]; rfl⟩
  | infinite negative =>
    cases negative with
    | false => exact ⟨"+Inf", by simp, fun places => by rw [fixed, h]; rfl⟩
    | true => exact ⟨"-Inf", by simp, fun places => by rw [fixed, h]; rfl⟩
  | finite negative m e => exact absurd h (hview negative m e)

theorem visible_fixed (places : ℕ) (x : Float) :
    (fixed places x).bytes ≠ [] ∧ ∀ b ∈ (fixed places x).bytes, Visible b := by
  by_cases hview : ∀ negative m e, Binary.view x ≠ .finite negative m e
  · obtain ⟨word, hword, htext⟩ := fixed_of_not_finite hview
    have hwords : ∀ word ∈ ([("NaN" : Text), "+Inf", "-Inf"] : List Text),
        word.bytes ≠ [] ∧ ∀ b ∈ word.bytes, Visible b := by decide +kernel
    rw [htext]
    exact hwords word hword
  · push Not at hview
    obtain ⟨negative, m, e, hview⟩ := hview
    obtain ⟨b, rest, hbytes, hdigit, hrest⟩ := bytes_fixedFinite places m e
    have hfinite : ∀ c ∈ (fixedFinite places m e).bytes, Visible c := by
      rw [hbytes, List.forall_mem_cons]
      exact ⟨visible_of_isDigit hdigit, hrest⟩
    rw [fixed_of_finite hview, Text.bytes_append]
    refine ⟨by simp [hbytes], fun c hc => ?_⟩
    rcases List.mem_append.mp hc with hc | hc
    · have hsign : ∀ c ∈ (if negative then ("-" : Text) else ∅).bytes, Visible c := by
        cases negative <;> decide +kernel
      exact hsign c hc
    · exact hfinite c hc

/-- What cannot be told with too many decimals is told before the number. -/
theorem fixedText_eq (x : Float) (precision : ℤ) :
    fixedText x precision = (if maxDecimals < precision then ("%!(BADPREC)" : Text) else ∅) ++
      fixed (if maxDecimals < precision then 6 else precision.toNat) x := by
  unfold fixedText
  split_ifs <;> rfl

/-- **A float is written with visible characters.** -/
theorem visible_fixedText (x : Float) (precision : ℤ) :
    ∀ b ∈ (fixedText x precision).bytes, Visible b := by
  rw [fixedText_eq, Text.bytes_append]
  intro b hb
  rcases List.mem_append.mp hb with hb | hb
  · have hmark : ∀ c ∈ (if maxDecimals < precision then ("%!(BADPREC)" : Text) else ∅).bytes,
        Visible c := by
      split_ifs <;> decide +kernel
    exact hmark b hb
  · exact (visible_fixed _ x).2 b hb

theorem bytes_fixedText_ne_nil (x : Float) (precision : ℤ) :
    (fixedText x precision).bytes ≠ [] := by
  rw [fixedText_eq, Text.bytes_append]
  exact List.append_ne_nil_of_right_ne_nil _ (visible_fixed _ x).1

/-- The decimals beyond those that a float can have are zeros. -/
theorem length_fixed_of_le {negative : Bool} (hview : Binary.view x = .finite negative m e)
    (h : mostPlaces ≤ places) :
    (fixed places x).bytes.length = (fixed mostPlaces x).bytes.length + (places - mostPlaces) := by
  have hzeros : ∀ k, (digitText (List.replicate k 0)).bytes.length = k :=
    fun k => by simp [digitText]
  rw [fixed_of_finite hview, fixed_of_finite hview, fixedFinite, fixedFinite]
  simp only [Text.bytes_append, List.length_append, hzeros, min_self, min_eq_right h, Nat.sub_self]
  omega

/-! ## Signs -/

/-- **A negative number is written with a minus sign.** -/
theorem head?_fixed_of_neg (hneg : Rounding.value x < 0) (places : ℕ) :
    (fixed places x).bytes.head? = some 0x2d := by
  unfold Rounding.value at hneg
  have hview := Binary.view_eq x
  cases hu : x.toModel.unpack with
  | notANumber => simp [hu, Rounding.worth] at hneg
  | zero s => simp [hu, Rounding.worth] at hneg
  | infinity s =>
    rw [hu] at hneg hview
    cases s with
    | positive => exact absurd hneg (not_lt.mpr Rounding.beyond_pos.le)
    | negative =>
      rw [fixed, hview]
      rfl
  | finite s m e p =>
    rw [hu] at hneg hview
    cases s with
    | positive =>
      have hpos : (0 : ℚ) ≤ m * 2 ^ e := by positivity
      exact absurd hneg (not_lt.mpr hpos)
    | negative =>
      rw [fixed_of_finite hview]
      rfl

/-- A finite number without a sign is written with a digit first. -/
theorem isDigit_head_fixed (hview : Binary.view x = .finite false m e) (places : ℕ) :
    ∃ b, (fixed places x).bytes.head? = some b ∧ Whole.isDigit b = true := by
  obtain ⟨b, rest, hbytes, hdigit, -⟩ := bytes_fixedFinite places m e
  refine ⟨b, ?_, hdigit⟩
  rw [fixed_of_finite hview, Text.bytes_append, hbytes]
  rfl

end Stopwatch.FloatText
