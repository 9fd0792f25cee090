import Stopwatch.Proofs.Float.Reading
import Stopwatch.Proofs.Prime.Loose

/-!
# Primality of numbers given as text

The digits of a number are read as a float, which below `2 ^ 53` is the number itself. From there on
it is a number nearby, and an even one: a prime number given as text is then said not to be prime
(`text_isPrime_iff`), although the same number as a whole number is tested exactly.
-/

namespace Stopwatch.Prime

open Binary Rounding

variable {n : ℕ} {x : Float}

/-- No float from `2 ^ 53` on is prime. -/
theorem lt_of_worth? {p : ℕ} (hp : p.Prime) (hexact : (view x).worth? = some (p : ℚ)) :
    p < 2 ^ 53 := by
  have hpos : (0 : ℚ) < p := by exact_mod_cast hp.pos
  cases hview : view x with
  | nan => simp [hview, worth?] at hexact
  | infinite negative => simp [hview, worth?] at hexact
  | finite negative m e =>
    rw [hview, worth?, Option.some.injEq, number] at hexact
    cases negative with
    | true =>
      have hnonneg : (0 : ℚ) ≤ m * 2 ^ e := by positivity
      rw [if_pos rfl] at hexact
      linarith
    | false => exact lt_of_prime (bounds_of_view hview).1 hp hexact

/-- Rounding keeps the numbers below `2 ^ 53`, and brings none of the others below. -/
theorem isPrimeFloat_iff_of_rounds (h : Rounds n x) :
    isPrimeFloat x = true ↔ n < 2 ^ 53 ∧ n.Prime := by
  rw [isPrimeFloat_iff]
  by_cases hsmall : n < 2 ^ 53
  · obtain ⟨hfin, hvalue⟩ := h.exact (onGrid_nat hsmall.le)
    rw [worth?_view, if_pos hfin, hvalue, and_iff_right hsmall]
    simp
  · refine iff_of_false ?_ fun hboth => hsmall hboth.1
    rintro ⟨p, hp, hexact⟩
    have hlt : (p : ℚ) < 2 ^ 53 := by exact_mod_cast lt_of_worth? hp hexact
    have hgrid : OnGrid (2 ^ 53) := onGrid_two_pow (by norm_num)
    have hge : 2 ^ 53 ≤ value x := h.ge_of_onGrid hgrid (by exact_mod_cast not_lt.mp hsmall)
    rw [worth?_view] at hexact
    split at hexact
    · have hvalue := Option.some.inj hexact
      linarith
    · cases hexact

/-! ## Digits with white space around them -/

variable (before after : List Char)

theorem text_isPrime_iff_prime (hn : n < 2 ^ 64)
    (hbefore : ∀ c ∈ before, Text.isBlankCode c.toNat = true)
    (hafter : ∀ c ∈ after, Text.isBlankCode c.toNat = true) :
    (Loose.text (.ofChars before ++ .ofNat n ++ .ofChars after)).isPrime = true ↔
      n < 2 ^ 53 ∧ n.Prime := by
  have htrim : (Text.ofChars before ++ .ofNat n ++ .ofChars after).trim = .ofNat n := by
    rw [Text.ofNat_eq_ofChars]
    exact Text.trim_surrounded hbefore hafter Nat.toDigits_ne_nil fun _ =>
      Text.isBlankCode_of_mem_toDigits
  obtain ⟨x, hread, hrounds⟩ := FloatReading.exists_read?_ofNat hn
  simp only [Loose.isPrime, Loose.toNumber, htrim, hread]
  exact isPrimeFloat_iff_of_rounds hrounds

theorem isPrime_ofNat_iff (hn : n < 2 ^ 63) : isPrime (Int64.ofNat n) = true ↔ n.Prime := by
  rw [isPrime_iff]
  exact isPrimeInt_iff (Int64.toInt_ofNat_of_lt hn)

/-- **A number given as text is said to be prime exactly if it is prime and below `2 ^ 53`**,
whatever white space is around it. So the answer is that for the number itself exactly if the number
is below `2 ^ 53` or not prime. -/
theorem text_isPrime_iff (hn : n < 2 ^ 63) (hbefore : ∀ c ∈ before, Text.isBlankCode c.toNat = true)
    (hafter : ∀ c ∈ after, Text.isBlankCode c.toNat = true) :
    ((Loose.text (.ofChars before ++ .ofNat n ++ .ofChars after)).isPrime = true ↔
        n < 2 ^ 53 ∧ n.Prime) ∧
      ((Loose.text (.ofChars before ++ .ofNat n ++ .ofChars after)).isPrime =
          isPrime (Int64.ofNat n) ↔
        n < 2 ^ 53 ∨ ¬ n.Prime) := by
  have htext := text_isPrime_iff_prime before after (n := n) (by omega) hbefore hafter
  refine ⟨htext, ?_⟩
  rw [Bool.eq_iff_iff, htext, isPrime_ofNat_iff hn, and_iff_right_iff_imp, imp_iff_or_not]

/-- The greatest number of 53 bits that is prime, between white space of all kinds. -/
theorem text_isPrime_of_spaces :
    (Loose.text "\t\u2003 9007199254740881\u00a0\n").isPrime = isPrime 9007199254740881 := by
  have hspelled : ("\t\u2003 9007199254740881\u00a0\n" : Text) =
      .ofChars ['\t', '\u2003', ' '] ++ .ofNat 9007199254740881 ++
      .ofChars ['\u00a0', '\n'] := by decide +kernel
  have htext := text_isPrime_iff ['\t', '\u2003', ' '] ['\u00a0', '\n']
    (n := 9007199254740881) (by norm_num) (by simp [Text.isBlankCode]) (by simp [Text.isBlankCode])
  rw [hspelled]
  exact htext.2.mpr (.inl (by norm_num))

/-- The first prime number from `2 ^ 53` on, by Lucas' test. -/
theorem prime_above_two_pow : Nat.Prime 9007199254740997 := by
  refine lucas_primality _ 11 (by reduce_mod_char) ?_
  intro q hq hdvd
  have hfactors : [2, 2, 3, 3, 307, 2857, 6529, 43691].prod = 9007199254740997 - 1 := rfl
  have hprimes : ∀ a ∈ [2, 2, 3, 3, 307, 2857, 6529, 43691], Nat.Prime a := by norm_num
  rw [← hfactors] at hdvd
  obtain ⟨a, ha, hqa⟩ := (Prime.dvd_prod_iff hq.prime).mp hdvd
  obtain rfl := (Nat.prime_dvd_prime_iff_eq hq (hprimes a ha)).mp hqa
  simp only [List.mem_cons, List.not_mem_nil, or_false] at ha
  rcases ha with rfl | rfl | rfl | rfl | rfl | rfl | rfl | rfl
  all_goals
    reduce_mod_char
    decide

/-- It is prime, and as a whole number it is said to be; as text it is not. -/
theorem text_not_isPrime_of_prime :
    Nat.Prime 9007199254740997 ∧ isPrime 9007199254740997 = true ∧
      (Loose.text "9007199254740997").isPrime = false := by
  refine ⟨prime_above_two_pow, (isPrime_ofNat_iff (by norm_num)).mpr prime_above_two_pow, ?_⟩
  have htext :=
    text_isPrime_iff_prime [] [] (n := 9007199254740997) (by norm_num) (by simp) (by simp)
  rw [Bool.eq_false_iff]
  intro htrue
  have := (htext.mp htrue).1
  omega

end Stopwatch.Prime
