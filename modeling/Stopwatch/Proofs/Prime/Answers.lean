import Stopwatch.Proofs.Prime.Chunks

/-!
# What a task answers

A task compares the numbers of its chunk one by one. `Chunk.check` is what it comes to when nothing
gets in its way: the least number of the chunk on which the predicate disagrees with a reference,
and how (`finds_of_check`), or that there is none (`check_eq_none_iff`). `Chunk.answer?` also takes
into account a session that has ended before the check begins, where no number is compared.
-/

namespace Stopwatch.Prime

variable {predicate : Int64 → Bool} {n last : Int64} {m : Mismatch} {c : Chunk}

/-! ## One number -/

/-- The predicate agrees with both references on a number. -/
def Agrees (predicate : Int64 → Bool) (n : Int64) : Prop :=
  predicate n = isPrimeByTrial n ∧ predicate n = isProbablePrime n

/-- The mismatch tells the answers of the predicate and of the first reference that disagrees with
it. -/
structure Tells (predicate : Int64 → Bool) (m : Mismatch) : Prop where
  got : m.got = predicate m.n
  differ : m.got ≠ m.want
  oracle : m.oracle = "trial-division" ∧ m.want = isPrimeByTrial m.n ∨
    m.oracle = oracleName ∧ m.want = isProbablePrime m.n ∧ predicate m.n = isPrimeByTrial m.n

theorem disagreement?_eq_none_iff : disagreement? predicate n = none ↔ Agrees predicate n := by
  unfold disagreement? Agrees
  dsimp only
  split
  · next h => simpa using fun heq => absurd heq (bne_iff_ne.mp h)
  · next h =>
    have heq : predicate n = isPrimeByTrial n := by simpa using h
    split
    · next h' => simpa [heq] using bne_iff_ne.mp h'
    · next h' => simpa using ⟨heq, by simpa using h'⟩

theorem tells_of_disagreement? (h : disagreement? predicate n = some m) :
    m.n = n ∧ Tells predicate m := by
  unfold disagreement? at h
  dsimp only at h
  split at h
  · next hne =>
    obtain rfl := Option.some.inj h
    exact ⟨rfl, rfl, bne_iff_ne.mp hne, .inl ⟨rfl, rfl⟩⟩
  · next heq =>
    split at h
    · next hne =>
      obtain rfl := Option.some.inj h
      exact ⟨rfl, rfl, bne_iff_ne.mp hne, .inr ⟨rfl, rfl, by simpa using heq⟩⟩
    · exact absurd h (by simp)

theorem Tells.not_agrees (h : Tells predicate m) : ¬ Agrees predicate m.n := by
  rintro ⟨h1, h2⟩
  rcases h.oracle with ⟨-, hwant⟩ | ⟨-, hwant, -⟩
  · exact h.differ (by rw [h.got, hwant, h1])
  · exact h.differ (by rw [h.got, hwant, h2])

/-! ## One chunk -/

/-- The first disagreement from `n` on, up to `last`. -/
def checkFrom (predicate : Int64 → Bool) (last n : Int64) : Option Mismatch :=
  match disagreement? predicate n with
  | some m => some m
  | none => if n = last then none else checkFrom predicate last (n + 1)
termination_by (last.toUInt64 - n.toUInt64).toNat
decreasing_by exact toNat_sub_succ_lt ‹_›

/-- The first disagreement in a chunk. -/
def Chunk.check (predicate : Int64 → Bool) (c : Chunk) : Option Mismatch :=
  checkFrom predicate c.last c.first

theorem toInt_succ_of_lt (h : n < last) : (n + 1).toInt = n.toInt + 1 := by
  refine toInt_add_one ?_
  rintro rfl
  have h1 := Int64.lt_iff_toInt_lt.mp h
  have h2 := last.toInt_le
  omega

theorem succ_le_of_lt (h : n < last) : n + 1 ≤ last := by
  rw [Int64.le_iff_toInt_le, toInt_succ_of_lt h]
  exact Int64.lt_iff_toInt_lt.mp h

/-- The numbers from `n` on are `n` and those from the next one on. -/
theorem succ_le_iff {k : Int64} (h : n < last) : n + 1 ≤ k ↔ n ≤ k ∧ k ≠ n := by
  rw [Int64.le_iff_toInt_le, toInt_succ_of_lt h, Int64.le_iff_toInt_le, ne_eq, ← Int64.toInt_inj]
  omega

theorem checkFrom_eq_none_iff (h : n ≤ last) :
    checkFrom predicate last n = none ↔ ∀ k, n ≤ k → k ≤ last → Agrees predicate k := by
  fun_induction checkFrom predicate last n with
  | case1 n m hd =>
    refine ⟨fun hn => absurd hn (by simp), fun hall => ?_⟩
    obtain ⟨rfl, htells⟩ := tells_of_disagreement? hd
    exact absurd (hall _ (Int64.le_refl _) h) htells.not_agrees
  | case2 hd =>
    refine ⟨fun _ k hk1 hk2 => ?_, fun _ => rfl⟩
    rw [← Int64.le_antisymm hk1 hk2]
    exact disagreement?_eq_none_iff.mp hd
  | case3 n hd hne ih =>
    have hlt : n < last := Int64.lt_of_le_of_ne h hne
    rw [ih (succ_le_of_lt hlt)]
    constructor
    · intro hall k hk1 hk2
      by_cases hkn : k = n
      · rw [hkn]
        exact disagreement?_eq_none_iff.mp hd
      · exact hall k ((succ_le_iff hlt).mpr ⟨hk1, hkn⟩) hk2
    · intro hall k hk1 hk2
      exact hall k ((succ_le_iff hlt).mp hk1).1 hk2

theorem of_checkFrom_eq_some (h : n ≤ last) (hm : checkFrom predicate last n = some m) :
    (n ≤ m.n ∧ m.n ≤ last) ∧ Tells predicate m ∧ ∀ k, n ≤ k → k < m.n → Agrees predicate k := by
  fun_induction checkFrom predicate last n with
  | case1 n m' hd =>
    obtain rfl := Option.some.inj hm
    obtain ⟨rfl, htells⟩ := tells_of_disagreement? hd
    refine ⟨⟨Int64.le_refl _, h⟩, htells, ?_⟩
    intro k hk1 hk2
    exact absurd hk1 (Int64.not_le.mpr hk2)
  | case2 hd => exact absurd hm (by simp)
  | case3 n hd hne ih =>
    have hlt : n < last := Int64.lt_of_le_of_ne h hne
    obtain ⟨⟨h1, h2⟩, htells, hbefore⟩ := ih (succ_le_of_lt hlt) hm
    refine ⟨⟨((succ_le_iff hlt).mp h1).1, h2⟩, htells, ?_⟩
    intro k hk1 hk2
    by_cases hkn : k = n
    · rw [hkn]
      exact disagreement?_eq_none_iff.mp hd
    · exact hbefore k ((succ_le_iff hlt).mpr ⟨hk1, hkn⟩) hk2

namespace Chunk

/-- The mismatch is the least one of the chunk, and tells how the answers differ. -/
structure Finds (predicate : Int64 → Bool) (c : Chunk) (m : Mismatch) : Prop where
  contains : c.Contains m.n
  tells : Tells predicate m
  before : ∀ k, c.first ≤ k → k < m.n → Agrees predicate k

theorem check_eq_none_iff (h : c.first ≤ c.last) :
    c.check predicate = none ↔ ∀ n, c.Contains n → Agrees predicate n := by
  rw [check, checkFrom_eq_none_iff h]
  exact forall_congr' fun n => and_imp.symm

theorem finds_of_check (h : c.first ≤ c.last) (hm : c.check predicate = some m) :
    c.Finds predicate m := by
  obtain ⟨hcontains, htells, hbefore⟩ := of_checkFrom_eq_some h hm
  exact ⟨hcontains, htells, hbefore⟩

/-- What a task answers if no other task calls the check off. In a session that has ended it
compares nothing. -/
def answer? (ended : Option Fault) (predicate : Int64 → Bool) (c : Chunk) : Option Fault :=
  match ended with
  | some cause => some cause
  | none => (c.check predicate).map Fault.mismatch

end Chunk

end Stopwatch.Prime
