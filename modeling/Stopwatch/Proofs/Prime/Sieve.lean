import Mathlib.NumberTheory.PrimeCounting
import Mathlib.Tactic.Linarith
import Stopwatch.Prime.Sieve
import Stopwatch.Proofs.Prime.TrialDivision

/-!
# The sieve marks the primes

While the sieve is at the candidate `p`, it has crossed out a number exactly if some `d` below `p`
divides it and the square of `d` does not exceed it (`Sieved`). The candidates from which nothing is
crossed out, because they were crossed out themselves, change nothing in this: their own divisor has
seen to their multiples. Once the square of the candidate exceeds the limit, what is left are the
numbers that have no divisor up to their root.

The sieve works with words, and it has an answer only if no index leaves the table and no loop goes
on for ever. Each of its loops is therefore said to end with a table, over the numbers that the
words stand for. Below `2 ^ 62` these are the numbers meant: the square of a candidate up to the
limit leaves the candidate below `2 ^ 31`, so the next square still fits, and so does a multiple
that passes the limit. `IndexReaches` and `CandidateReaches` are the values that the counters of the
loops take.
-/

namespace Stopwatch.Prime

variable {p i limit step : Int64} {n k d j : ℕ} {b : Bool} {table t : Array Bool}

/-! ## Words -/

theorem toInt_add_of_lt (h0 : 0 ≤ p.toInt + i.toInt) (h : p.toInt + i.toInt < 2 ^ 63) :
    (p + i).toInt = p.toInt + i.toInt := by
  rw [Int64.toInt_add]
  exact Int.bmod_eq_of_le (by omega) (by omega)

theorem toInt_add_one_of_lt (h : p.toInt + 1 < 2 ^ 63) : (p + 1).toInt = p.toInt + 1 := by
  refine toInt_add_one ?_
  rintro rfl
  exact absurd h (by decide)

theorem toInt_mul_of_lt (h0 : 0 ≤ p.toInt * i.toInt) (h : p.toInt * i.toInt < 2 ^ 63) :
    (p * i).toInt = p.toInt * i.toInt := by
  rw [Int64.toInt_mul]
  exact Int.bmod_eq_of_le (by omega) (by omega)

theorem toInt_add_of_toInt (hi : i.toInt = k) (hstep : step.toInt = d) (h : k + d < 2 ^ 63) :
    (i + step).toInt = ((k + d : ℕ) : ℤ) := by
  rw [toInt_add_of_lt (by omega) (by omega), hi, hstep, Int.natCast_add]

theorem toInt_mul_self (hp : p.toInt = k) (hk : k ≤ 2 ^ 31) :
    (p * p).toInt = ((k * k : ℕ) : ℤ) := by
  have hsq : k * k ≤ 2 ^ 31 * 2 ^ 31 := Nat.mul_le_mul hk hk
  have hint : p.toInt * p.toInt = ((k * k : ℕ) : ℤ) := by rw [hp, Int.natCast_mul]
  rw [toInt_mul_of_lt (by omega) (by omega), hint]

theorem le_iff_of_toInt (hi : i.toInt = k) (hlimit : limit.toInt = n) : i ≤ limit ↔ k ≤ n := by
  rw [Int64.le_iff_toInt_le, hi, hlimit, Int.ofNat_le]

theorem toNatClampNeg_of_toInt (hi : i.toInt = k) : i.toNatClampNeg = k := by
  rw [← Int64.toNat_toInt, hi, Int.toNat_natCast]

theorem nonneg_of_toInt (hi : i.toInt = k) : 0 ≤ i := by
  rw [Int64.le_iff_toInt_le, Int64.toInt_zero, hi]
  exact Int.natCast_nonneg k

/-! ## One entry -/

/-- The entry of a number in a table is not crossed out. -/
abbrev Marked (table : Array Bool) (i : ℕ) : Prop := table.getD i false = true

theorem unmarked?_eq (hi : i.toInt = k) : unmarked? i = some (Array.replicate k false) := by
  rw [unmarked?, if_pos (nonneg_of_toInt hi), toNatClampNeg_of_toInt hi]

theorem hasEntry_of_toInt (hi : i.toInt = k) (hk : k < table.size) : HasEntry table i :=
  ⟨nonneg_of_toInt hi, by rwa [toNatClampNeg_of_toInt hi]⟩

theorem set_toNatClampNeg (hi : i.toInt = k) (h : i.toNatClampNeg < table.size) :
    table.set i.toNatClampNeg b h = table.setIfInBounds k b := by
  have hindex := toNatClampNeg_of_toInt hi
  rw [Array.setIfInBounds, dif_pos (by omega)]
  simp only [hindex]

theorem getD_setIfInBounds (hk : k < table.size) (b : Bool) (j : ℕ) :
    (table.setIfInBounds k b).getD j false = if j = k then b else table.getD j false := by
  simp only [Array.getD_eq_getD_getElem?, Array.getElem?_setIfInBounds]
  by_cases he : j = k
  · rw [if_pos he.symm, if_pos hk, if_pos he, Option.getD_some]
  · rw [if_neg (Ne.symm he), if_neg he]

/-! ## Entries at equal distances -/

/-- The second table is the first one with the entries `k`, `k + d`, `k + 2 * d`, … up to `n` set to
`b`. -/
structure SetAlong (n k d : ℕ) (b : Bool) (table t : Array Bool) : Prop where
  size : t.size = table.size
  set : ∀ m, k + m * d ≤ n → t.getD (k + m * d) false = b
  kept : ∀ j, (∀ m, j ≠ k + m * d) → t.getD j false = table.getD j false

theorem SetAlong.of_lt (h : n < k) (table : Array Bool) (b : Bool) :
    SetAlong n k d b table table where
  size := rfl
  set m hm := absurd hm (by omega)
  kept _ _ := rfl

theorem SetAlong.cons (hd : 0 < d) (hk : k < table.size)
    (h : SetAlong n (k + d) d b (table.setIfInBounds k b) t) :
    SetAlong n k d b table t where
  size := by rw [h.size, Array.size_setIfInBounds]
  set m hm := by
    cases m with
    | zero =>
      have hlater : ∀ m, k + 0 * d ≠ k + d + m * d := fun m => by omega
      rw [h.kept _ hlater, getD_setIfInBounds hk, if_pos (by omega)]
    | succ m =>
      rw [show k + (m + 1) * d = k + d + m * d by ring] at hm ⊢
      exact h.set m hm
  kept j hj := by
    have hlater : ∀ m, j ≠ k + d + m * d := by
      intro m
      rw [show k + d + m * d = k + (m + 1) * d by ring]
      exact hj (m + 1)
    have hfirst : j ≠ k := by simpa using hj 0
    rw [h.kept j hlater, getD_setIfInBounds hk, if_neg hfirst]

theorem SetAlong.marked_iff (h : SetAlong n k d b table t) (hj : j ≤ n) :
    Marked t j ↔ (∃ m, j = k + m * d) ∧ b = true ∨ (∀ m, j ≠ k + m * d) ∧ Marked table j := by
  by_cases hon : ∃ m, j = k + m * d
  · obtain ⟨m, rfl⟩ := hon
    rw [Marked, h.set m hj]
    exact ⟨fun hb => .inl ⟨⟨m, rfl⟩, hb⟩,
      fun hor => hor.elim And.right fun hoff => absurd rfl (hoff.1 m)⟩
  · have hoff : ∀ m, j ≠ k + m * d := not_exists.mp hon
    rw [Marked, h.kept j hoff, or_iff_right fun hor => hon hor.1, and_iff_right hoff]

/-- **The loop sets the entries and ends**, if a word can be one step beyond the limit. -/
theorem exists_setFrom? (hlimit : limit.toInt = n) (hstep : step.toInt = d) (hd : 0 < d)
    (hroom : n + d < 2 ^ 63) (hi : i.toInt = k) (hsize : table.size = n + 1) :
    ∃ t, setFrom? limit step b i table = some t ∧ SetAlong n k d b table t := by
  induction hleft : n + 1 - k using Nat.strong_induction_on generalizing i k table with
  | _ left ih =>
    rw [setFrom?]
    by_cases hle : k ≤ n
    · have hnext := toInt_add_of_toInt hi hstep (by omega)
      have hkept : (table.setIfInBounds k b).size = n + 1 := by rw [Array.size_setIfInBounds, hsize]
      have hentry : HasEntry table i ∧ 0 < step :=
        ⟨hasEntry_of_toInt hi (by omega),
          Int64.lt_iff_toInt_lt.mpr (by rw [Int64.toInt_zero]; omega)⟩
      obtain ⟨t, ht, hset⟩ := ih (n + 1 - (k + d)) (by omega) hnext hkept rfl
      rw [if_pos ((le_iff_of_toInt hi hlimit).mpr hle), dif_pos hentry, set_toNatClampNeg hi]
      exact ⟨t, ht, hset.cons hd (by omega)⟩
    · rw [if_neg fun h => hle ((le_iff_of_toInt hi hlimit).mp h)]
      exact ⟨table, rfl, .of_lt (by omega) table b⟩

/-- From its square on, a number's multiples are a progression. -/
theorem exists_square_add_iff (hk : 0 < k) : (∃ m, j = k * k + m * k) ↔ k * k ≤ j ∧ k ∣ j := by
  constructor
  · rintro ⟨m, rfl⟩
    exact ⟨Nat.le_add_right _ _, Dvd.intro (k + m) (by ring)⟩
  · rintro ⟨hle, q, rfl⟩
    obtain ⟨m, rfl⟩ := Nat.exists_eq_add_of_le (Nat.le_of_mul_le_mul_left hle hk)
    exact ⟨m, by ring⟩

/-! ## The candidates -/

/-- No number from two on and below `p`, with a square that does not exceed `i`, divides `i`. -/
def NoDivisorBelow (p i : ℕ) : Prop := ∀ d, 2 ≤ d → d < p → d * d ≤ i → ¬ d ∣ i

/-- What the table holds when it is the turn of the candidate `p`. -/
structure Sieved (limit p : ℕ) (table : Array Bool) : Prop where
  size : table.size = limit + 1
  marked_iff : ∀ i ≤ limit, Marked table i ↔ 2 ≤ i ∧ NoDivisorBelow p i

theorem SetAlong.sieved (h : SetAlong n 2 1 true (Array.replicate (n + 1) false) t) :
    Sieved n 2 t where
  size := by rw [h.size, Array.size_replicate]
  marked_iff i hi := by
    have hbelow : NoDivisorBelow 2 i := by
      intro d h2 hlt
      omega
    have hnone : ¬ Marked (Array.replicate (n + 1) false) i := by simp
    rw [h.marked_iff hi, and_iff_left hbelow, or_iff_left fun hor => hnone hor.2, and_iff_left rfl]
    exact ⟨fun ⟨m, hm⟩ => by omega, fun h2 => ⟨i - 2, by omega⟩⟩

theorem noDivisorBelow_succ_iff (h2 : 2 ≤ k) :
    NoDivisorBelow (k + 1) j ↔ NoDivisorBelow k j ∧ ¬ (k * k ≤ j ∧ k ∣ j) := by
  constructor
  · intro h
    exact ⟨fun d hd hlt => h d hd (by omega), fun ⟨hle, hdvd⟩ => h k h2 (by omega) hle hdvd⟩
  · rintro ⟨hbelow, hnot⟩ d hd hlt hle hdvd
    rcases Nat.lt_succ_iff_lt_or_eq.mp hlt with hlt | rfl
    · exact hbelow d hd hlt hle hdvd
    · exact hnot ⟨hle, hdvd⟩

theorem NoDivisorBelow.not_multiple (h : NoDivisorBelow k j) (hk : ¬ NoDivisorBelow k k) :
    ¬ (k * k ≤ j ∧ k ∣ j) := by
  rintro ⟨hle, hdvd⟩
  simp only [NoDivisorBelow] at hk
  push Not at hk
  obtain ⟨d, h2, hlt, hsq, hd⟩ := hk
  have hself : k ≤ k * k := Nat.le_mul_self k
  exact h d h2 hlt (by omega) (hd.trans hdvd)

theorem Sieved.crossOut (h : Sieved n k table) (h2 : 2 ≤ k)
    (hset : SetAlong n (k * k) k false table t) :
    Sieved n (k + 1) t where
  size := hset.size.trans h.size
  marked_iff i hi := by
    rw [hset.marked_iff hi, h.marked_iff i hi, noDivisorBelow_succ_iff h2,
      ← exists_square_add_iff (by omega), not_exists,
      or_iff_right fun hor => Bool.false_ne_true hor.2]
    tauto

theorem Sieved.skip (h : Sieved n k table) (h2 : 2 ≤ k) (hk : k ≤ n) (hmark : ¬ Marked table k) :
    Sieved n (k + 1) table where
  size := h.size
  marked_iff i hi := by
    -- The candidate was crossed out for the sake of a divisor, and that one has seen to the
    -- multiples.
    have hself : ¬ NoDivisorBelow k k := fun hself => hmark ((h.marked_iff k hk).mpr ⟨h2, hself⟩)
    rw [h.marked_iff i hi, noDivisorBelow_succ_iff h2]
    exact and_congr_right fun _ => ⟨fun hbelow => ⟨hbelow, hbelow.not_multiple hself⟩, And.left⟩

theorem le_of_mul_self_le (hn : n < 2 ^ 62) (hle : k * k ≤ n) : k < 2 ^ 31 :=
  Nat.mul_self_lt_mul_self_iff.mp (by omega)

/-- **One candidate.** -/
theorem Sieved.exists_crossOut? (h : Sieved n k table) (hlimit : limit.toInt = n) (hn : n < 2 ^ 62)
    (hp : p.toInt = k) (h2 : 2 ≤ k) (hle : k * k ≤ n) :
    ∃ t, crossOut? limit p table = some t ∧ Sieved n (k + 1) t := by
  have hk : k ≤ n := (Nat.le_mul_self k).trans hle
  have hlt := le_of_mul_self_le hn hle
  rw [crossOut?, toNatClampNeg_of_toInt hp]
  by_cases hmark : Marked table k
  · obtain ⟨t, ht, hset⟩ := exists_setFrom? (b := false) hlimit hp (by omega) (by omega)
      (toInt_mul_self hp hlt.le) h.size
    exact ⟨t, by rw [if_pos hmark, ht], h.crossOut h2 hset⟩
  · exact ⟨table, if_neg hmark, h.skip h2 hk hmark⟩

/-- **All candidates**, up to one whose square exceeds the limit. -/
theorem Sieved.exists_sieveFrom? (h : Sieved n k table) (hlimit : limit.toInt = n) (hn : n < 2 ^ 62)
    (hp : p.toInt = k) (h2 : 2 ≤ k) (hk : k ≤ 2 ^ 31) :
    ∃ q t, sieveFrom? limit p table = some t ∧ n < q * q ∧ Sieved n q t := by
  induction hleft : 2 ^ 31 - k using Nat.strong_induction_on generalizing p k table with
  | _ left ih =>
    have hguard : p * p ≤ limit ↔ k * k ≤ n := le_iff_of_toInt (toInt_mul_self hp hk) hlimit
    rw [sieveFrom?]
    by_cases hle : k * k ≤ n
    · have hlt := le_of_mul_self_le hn hle
      obtain ⟨t, ht, hsieved⟩ := h.exists_crossOut? hlimit hn hp h2 hle
      have hbelow : k ≤ n := (Nat.le_mul_self k).trans hle
      have hentry : HasEntry table p := hasEntry_of_toInt hp (by rw [h.size]; omega)
      rw [if_pos (hguard.mpr hle), dif_pos hentry, ht]
      exact ih (2 ^ 31 - (k + 1)) (by omega) hsieved (toInt_add_of_toInt hp rfl (by omega))
        (by omega) (by omega) rfl
    · rw [if_neg fun hg => hle (hguard.mp hg)]
      exact ⟨k, table, rfl, by omega, h⟩

/-- Once the candidates are through, the primes are marked. -/
theorem Sieved.marked_iff_prime (h : Sieved n k table) (hlt : n < k * k) (hj : j ≤ n) :
    Marked table j ↔ j.Prime := by
  rw [h.marked_iff j hj]
  constructor
  · rintro ⟨h2, hbelow⟩
    rw [prime_iff_no_divisor h2]
    intro d hd hsq
    have hless : d < k := Nat.mul_self_lt_mul_self_iff.mp (by omega)
    exact hbelow d hd hless hsq
  · intro hprime
    exact ⟨hprime.two_le, fun d hd _ hsq => (prime_iff_no_divisor hprime.two_le).mp hprime d hd hsq⟩

/-! ## The sieve -/

/-- **The sieve has an answer**, in which the primes are marked. -/
theorem exists_sieve? (hlimit : limit.toInt = n) (hn : n < 2 ^ 62) :
    ∃ table, sieve? limit = some table ∧ table.size = n + 1 ∧
      ∀ j ≤ n, Marked table j ↔ j.Prime := by
  have hnonneg : ¬ limit < 0 := by
    rw [Int64.lt_iff_toInt_lt, Int64.toInt_zero]
    omega
  have hsize : (limit + 1).toInt = ((n + 1 : ℕ) : ℤ) := toInt_add_of_toInt hlimit rfl (by omega)
  obtain ⟨t, ht, hset⟩ : ∃ t, setFrom? limit 1 true 2 (Array.replicate (n + 1) false) = some t ∧
      SetAlong n 2 1 true (Array.replicate (n + 1) false) t :=
    exists_setFrom? hlimit rfl one_pos (by omega) rfl Array.size_replicate
  obtain ⟨q, table, htable, hlt, hsieved⟩ :=
    hset.sieved.exists_sieveFrom? hlimit hn (p := 2) rfl le_rfl (by omega)
  refine ⟨table, ?_, hsieved.size, fun j hj => hsieved.marked_iff_prime hlt hj⟩
  rw [sieve?, if_neg hnonneg, unmarked?_eq hsize]
  show (setFrom? limit 1 true 2 _).bind _ = _
  rw [ht]
  exact htable

/-- How many primes there are from two up to a number. -/
def upTo (k : ℕ) : ℕ := ((Finset.Icc 2 k).filter Nat.Prime).card

theorem count_succ_eq_upTo (k : ℕ) : Nat.count Nat.Prime (k + 1) = upTo k := by
  rw [Nat.count_eq_card_filter_range, upTo]
  congr 1
  ext p
  simp only [Finset.mem_filter, Finset.mem_range, Finset.mem_Icc]
  exact ⟨fun ⟨hlt, hp⟩ => ⟨⟨hp.two_le, by omega⟩, hp⟩, fun ⟨⟨_, hle⟩, hp⟩ => ⟨by omega, hp⟩⟩

theorem toList_of_marked_iff (hsize : table.size = n + 1) (h : ∀ j ≤ n, Marked table j ↔ j.Prime) :
    table.toList = (List.range (n + 1)).map fun j => decide j.Prime := by
  refine List.ext_getElem (by simp [hsize]) fun j hj _ => ?_
  rw [Array.length_toList] at hj
  have hmark := h j (by omega)
  rw [Marked, Array.getD_eq_getD_getElem?, Array.getElem?_eq_getElem hj, Option.getD_some] at hmark
  rw [List.getElem_map, List.getElem_range, Array.getElem_toList, Bool.eq_iff_iff,
    hmark, decide_eq_true_iff]

theorem foldl_primes (n : ℕ) :
    ((List.range n).map fun i => decide i.Prime).foldl (fun n b => if b then n + 1 else n) 0 =
      Nat.count Nat.Prime n := by
  induction n with
  | zero => rfl
  | succ n ih =>
    rw [List.range_succ, List.map_append, List.foldl_append, ih, Nat.count_succ]
    by_cases h : n.Prime <;> simp [h]

theorem countMarks_of_marked_iff (hsize : table.size = n + 1)
    (h : ∀ j ≤ n, Marked table j ↔ j.Prime) :
    countMarks table = upTo n := by
  rw [countMarks, ← Array.foldl_toList, toList_of_marked_iff hsize h,
    foldl_primes, count_succ_eq_upTo]

/-- **The sieve counts the primes up to its limit.** -/
theorem countBySieve?_eq (hlimit : limit.toInt = n) (hn : n < 2 ^ 62) :
    countBySieve? limit = some (upTo n) := by
  obtain ⟨table, htable, hsize, hmarked⟩ := exists_sieve? hlimit hn
  rw [countBySieve?, htable, Option.map_some, countMarks_of_marked_iff hsize hmarked]

/-! ## The counters do not wrap -/

/-- The values that the index takes at which entries are set, from the first one on. -/
inductive IndexReaches (limit step first : Int64) : Int64 → Prop
  | start : IndexReaches limit step first first
  | next {i : Int64} : IndexReaches limit step first i → i ≤ limit →
      IndexReaches limit step first (i + step)

/-- The values that the candidate takes. -/
inductive CandidateReaches (limit : Int64) : Int64 → Prop
  | start : CandidateReaches limit 2
  | next {p : Int64} : CandidateReaches limit p → p * p ≤ limit → CandidateReaches limit (p + 1)

theorem IndexReaches.exists_toInt {first : Int64} (h : IndexReaches limit step first i)
    (hlimit : limit.toInt = n) (hstep : step.toInt = d) (hroom : n + d < 2 ^ 63)
    (hfirst : first.toInt = k) : ∃ m : ℕ, i.toInt = m := by
  induction h with
  | start => exact ⟨k, hfirst⟩
  | @next i _ hg ih =>
    obtain ⟨m, hm⟩ := ih
    have hle := (le_iff_of_toInt hm hlimit).mp hg
    exact ⟨m + d, toInt_add_of_toInt hm hstep (by omega)⟩

theorem IndexReaches.next_exact {first : Int64} (h : IndexReaches limit step first i)
    (hlimit : limit.toInt = n) (hstep : step.toInt = d) (hroom : n + d < 2 ^ 63)
    (hfirst : first.toInt = k) (hg : i ≤ limit) :
    0 ≤ i ∧ (i + step).toInt = i.toInt + step.toInt := by
  obtain ⟨m, hm⟩ := h.exists_toInt hlimit hstep hroom hfirst
  have hle := (le_iff_of_toInt hm hlimit).mp hg
  exact ⟨nonneg_of_toInt hm, toInt_add_of_lt (by omega) (by omega)⟩

theorem CandidateReaches.exists_toInt (h : CandidateReaches limit p)
    (hlimit : limit.toInt = n) (hn : n < 2 ^ 62) :
    ∃ k : ℕ, p.toInt = k ∧ 2 ≤ k ∧ k ≤ 2 ^ 31 := by
  induction h with
  | start => exact ⟨2, rfl, le_rfl, by omega⟩
  | @next p _ hg ih =>
    obtain ⟨k, hk, h2, hle⟩ := ih
    have hlt := le_of_mul_self_le hn ((le_iff_of_toInt (toInt_mul_self hk hle) hlimit).mp hg)
    exact ⟨k + 1, toInt_add_of_toInt hk rfl (by omega), by omega, by omega⟩

/-- **The sieve marks the primes** and nothing else in a table up to its limit, and counts them. On
the way every index is one of the table, and no size, index, candidate or square of a candidate
wraps. A negative limit has an empty table. -/
theorem sieve_exact (limit : Int64) :
    (limit < 0 → sieve? limit = some #[] ∧ countBySieve? limit = some 0) ∧
    (0 ≤ limit → limit.toInt < 2 ^ 62 →
      (∃ table, sieve? limit = some table ∧ table.size = limit.toInt + 1 ∧
        ∀ i (h : i < table.size), table[i] = true ↔ i.Prime) ∧
      countBySieve? limit = some ((Finset.Icc 2 limit.toInt.toNat).filter Nat.Prime).card ∧
      (limit + 1).toInt = limit.toInt + 1 ∧
      (∀ i, IndexReaches limit 1 2 i → i ≤ limit → 0 ≤ i ∧ (i + 1).toInt = i.toInt + 1) ∧
      ∀ p, CandidateReaches limit p → (p * p).toInt = p.toInt * p.toInt ∧
        (p * p ≤ limit → (0 ≤ p ∧ p ≤ limit) ∧ (p + 1).toInt = p.toInt + 1 ∧
          ∀ m, IndexReaches limit p (p * p) m → m ≤ limit → 0 ≤ m ∧
            (m + p).toInt = m.toInt + p.toInt)) := by
  constructor
  · intro hneg
    have hempty : sieve? limit = some #[] := by rw [sieve?, if_pos hneg]; rfl
    exact ⟨hempty, by rw [countBySieve?, hempty]; rfl⟩
  · intro hnonneg hlt
    rw [Int64.le_iff_toInt_le, Int64.toInt_zero] at hnonneg
    obtain ⟨n, hlimit⟩ := Int.eq_ofNat_of_zero_le hnonneg
    have hn : n < 2 ^ 62 := by omega
    refine ⟨?_, ?_, toInt_add_one_of_lt (by omega), ?_, ?_⟩
    · obtain ⟨table, htable, hsize, hmarked⟩ := exists_sieve? hlimit hn
      refine ⟨table, htable, by omega, fun i hi => ?_⟩
      rw [← hmarked i (by omega), Marked, Array.getD_eq_getD_getElem?,
        Array.getElem?_eq_getElem hi, Option.getD_some]
    · rw [countBySieve?_eq hlimit hn, hlimit, Int.toNat_natCast, upTo]
    · intro i hi hg
      exact hi.next_exact hlimit (d := 1) rfl (by omega) (k := 2) rfl hg
    · intro p hp
      obtain ⟨k, hk, h2, hle⟩ := hp.exists_toInt hlimit hn
      have hsq := toInt_mul_self hk hle
      refine ⟨by rw [hsq, hk, Int.natCast_mul], ?_⟩
      intro hg
      have hself := (le_iff_of_toInt hsq hlimit).mp hg
      have hlast := le_of_mul_self_le hn hself
      have hbelow : k ≤ n := (Nat.le_mul_self k).trans hself
      refine ⟨⟨nonneg_of_toInt hk, (le_iff_of_toInt hk hlimit).mpr hbelow⟩,
        toInt_add_one_of_lt (by omega), ?_⟩
      intro m hm hgm
      exact hm.next_exact hlimit hk (by omega) hsq hgm

/-- The greatest limit. -/
theorem sieve_exact_of_greatest :
    (0 ≤ (0x3fffffffffffffff : Int64) ∧ (0x3fffffffffffffff : Int64).toInt < 2 ^ 62) ∧
      countBySieve? 0x3fffffffffffffff =
        some ((Finset.Icc 2 (2 ^ 62 - 1)).filter Nat.Prime).card := by
  have h0 : 0 ≤ (0x3fffffffffffffff : Int64) := by decide
  have hlt : (0x3fffffffffffffff : Int64).toInt < 2 ^ 62 := by decide
  exact ⟨⟨h0, hlt⟩, ((sieve_exact 0x3fffffffffffffff).2 h0 hlt).2.1⟩

end Stopwatch.Prime
