import Mathlib.Tactic.ByContra
import Mathlib.Tactic.SplitIfs
import Stopwatch.Session

/-!
# Consistency

Workloads of one group that ran with equally many iterations must find equally many primes. The
search for a disagreement compares each result only with the first one under the same key. It finds
nothing exactly if there is one number of primes for each key (`findFrom_eq_none_iff`), that is if
no two results disagree (`find?_eq_none_iff`), so the order of the results does not matter. A result
without a key is passed over (`find?_filter`).
-/

namespace Stopwatch

namespace Disagreement

variable {results : List Result} {seen : List ((Text × UInt64) × Result)}
    {key : Text × UInt64} {a b r : Result}

/-! ## Two results -/

/-- Two results have completed all runs of workloads of one group with equally many iterations, and
report different numbers of primes. -/
def Between (a b : Result) : Prop :=
  ∃ v w : Workload, a.fault = none ∧ b.fault = none ∧ a.workload = some v ∧ b.workload = some w ∧
    v.group = w.group ∧ v.group ≠ ∅ ∧ a.report.iterations = b.report.iterations ∧
    a.report.outcome.primes ≠ b.report.outcome.primes

/-- Two results that must agree do. -/
theorem not_between_iff : ¬ Between a b ↔ ∀ v w : Workload, a.fault = none →
    b.fault = none → a.workload = some v →
    b.workload = some w → v.group = w.group → v.group ≠ ∅ →
        a.report.iterations = b.report.iterations →
      a.report.outcome.primes = b.report.outcome.primes := by
  constructor
  · intro hnot v w hfa hfb hwa hwb hgroup hne hit
    by_contra hprimes
    exact hnot ⟨v, w, hfa, hfb, hwa, hwb, hgroup, hne, hit, hprimes⟩
  · rintro hagree ⟨v, w, hfa, hfb, hwa, hwb, hgroup, hne, hit, hprimes⟩
    exact hprimes (hagree v w hfa hfb hwa hwb hgroup hne hit)

theorem key?_eq_some_iff : key? r = some key ↔
    ∃ w : Workload, r.fault = none ∧ r.workload = some w ∧ w.group ≠ ∅ ∧
      key = (w.group, r.report.iterations) := by
  have hempty : ∀ t : Text, t.isEmpty = true ↔ t = ∅ := by
    rintro ⟨bytes⟩
    rw [Text.isEmpty, List.isEmpty_iff]
    exact ⟨fun h => congrArg Text.mk h, fun h => congrArg Text.bytes h⟩
  unfold key?
  cases r.fault <;> cases r.workload <;> simp [hempty, eq_comm]

/-! ## The first result under a key -/

/-- The first result seen under a key. -/
def look (seen : List ((Text × UInt64) × Result)) (key : Text × UInt64) : Option Result :=
  (seen.find? fun p => p.1 == key).map (·.2)

theorem look_cons (k : Text × UInt64) :
    look ((k, r) :: seen) key = if k = key then some r else look seen key := by
  unfold look
  rw [List.find?_cons]
  by_cases h : k = key
  · simp [h]
  · simp [h, beq_false_of_ne h]

/-- The results, and those seen before, report the number of primes that goes with their key. -/
structure Counted (count : Text × UInt64 → Int)
    (seen : List ((Text × UInt64) × Result)) (rs : List Result) :
    Prop where
  seen : ∀ key r, look seen key = some r → r.report.outcome.primes = count key
  results : ∀ r ∈ rs, ∀ key, key? r = some key → r.report.outcome.primes = count key

variable {count : Text × UInt64 → Int} {rs : List Result}

/-- A result without a key does not count. -/
theorem counted_of_key?_eq_none (h : key? r = none) : Counted count seen (r :: rs) ↔
    Counted count seen rs := by
  constructor
  · rintro ⟨hseen, hrs⟩
    exact ⟨hseen, (List.forall_mem_cons.mp hrs).2⟩
  · rintro ⟨hseen, hrs⟩
    exact ⟨hseen,
      List.forall_mem_cons.mpr ⟨fun key hkey => absurd (h.symm.trans hkey) (by simp), hrs⟩⟩

/-- The first result with a key counts as seen. -/
theorem counted_of_look_eq_none (hkey : key? r = some key) (hlook : look seen key = none) :
    Counted count seen (r :: rs) ↔ Counted count ((key, r) :: seen) rs := by
  constructor
  · rintro ⟨hseen, hrs⟩
    obtain ⟨hr, hrs⟩ := List.forall_mem_cons.mp hrs
    refine ⟨fun k x hx => ?_, hrs⟩
    rw [look_cons] at hx
    split_ifs at hx with hk
    · obtain rfl := Option.some.inj hx
      exact hr k (hk ▸ hkey)
    · exact hseen k x hx
  · rintro ⟨hseen, hrs⟩
    refine ⟨fun k x hx => hseen k x ?_, List.forall_mem_cons.mpr ⟨fun k hk => ?_, hrs⟩⟩
    · rw [look_cons, if_neg]
      · exact hx
      · rintro rfl
        rw [hlook] at hx
        exact absurd hx (by simp)
    · obtain rfl : key = k := Option.some.inj (hkey.symm.trans hk)
      exact hseen key r (by rw [look_cons, if_pos rfl])

/-- A later result with a key counts if it agrees with the first one. -/
theorem counted_of_look_eq_some {first : Result} (hkey : key? r = some key)
    (hlook : look seen key = some first) :
    Counted count seen (r :: rs) ↔
      first.report.outcome.primes = r.report.outcome.primes ∧ Counted count seen rs := by
  constructor
  · rintro ⟨hseen, hrs⟩
    obtain ⟨hr, hrs⟩ := List.forall_mem_cons.mp hrs
    exact ⟨(hseen key first hlook).trans (hr key hkey).symm, hseen, hrs⟩
  · rintro ⟨heq, hseen, hrs⟩
    refine ⟨hseen, List.forall_mem_cons.mpr ⟨fun k hk => ?_, hrs⟩⟩
    obtain rfl : key = k := Option.some.inj (hkey.symm.trans hk)
    exact heq.symm.trans (hseen key first hlook)

/-! ## The search -/

/-- The search finds nothing if and only if there is one number of primes for each key. -/
theorem findFrom_eq_none_iff (seen : List ((Text × UInt64) × Result)) (rs : List Result) :
    findFrom seen rs = none ↔ ∃ count, Counted count seen rs := by
  induction rs generalizing seen with
  | nil =>
    refine ⟨fun _ => ⟨fun key => ((look seen key).map (·.report.outcome.primes)).getD 0,
      ?_, by simp⟩, fun _ => rfl⟩
    intro key r h
    simp only [h, Option.map_some, Option.getD_some]
  | cons r rs ih =>
    rw [findFrom]
    cases hkey : key? r with
    | none => simp only [ih seen, counted_of_key?_eq_none hkey]
    | some key =>
      have hlook : look seen key = (seen.find? fun p => p.1 == key).map (·.2) := rfl
      cases hfind : seen.find? fun p => p.1 == key with
      | none =>
        rw [hfind, Option.map_none] at hlook
        simp only [hfind, ih, counted_of_look_eq_none hkey hlook]
      | some p =>
        rw [hfind, Option.map_some] at hlook
        simp only [hfind, counted_of_look_eq_some hkey hlook, exists_and_left, ← ih seen]
        split_ifs with hne
        · exact ⟨fun h => absurd h (by simp), fun h => absurd h.1 (bne_iff_ne.mp hne)⟩
        · have heq : p.2.report.outcome.primes = r.report.outcome.primes := by simpa using hne
          exact ⟨fun h => ⟨heq, h⟩, fun h => h.2⟩

/-- **A disagreement is found exactly if two results disagree**, in whatever order they are looked
through. -/
theorem find?_eq_none_iff : find? results = none ↔ ∀ a ∈ results, ∀ b ∈ results, ¬ Between a b := by
  rw [find?, findFrom_eq_none_iff]
  constructor
  · rintro ⟨count, -, hrs⟩ a ha b hb ⟨v, w, hfa, hfb, hwa, hwb, hgroup, hne, hit, hprimes⟩
    have h1 := hrs a ha _ (key?_eq_some_iff.mpr ⟨v, hfa, hwa, hne, rfl⟩)
    have h2 := hrs b hb _ (key?_eq_some_iff.mpr ⟨w, hfb, hwb, hgroup ▸ hne, rfl⟩)
    rw [← hgroup, ← hit] at h2
    exact hprimes (h1.trans h2.symm)
  · intro hagree
    -- The number under a key is that of the first result that has it.
    refine ⟨fun key => ((results.find? fun r => key? r == some key).map
      (·.report.outcome.primes)).getD 0, ?_, ?_⟩
    · intro key r h
      exact absurd h (by simp [look])
    · intro r hr key hkey
      have hsome : (results.find? fun r => key? r == some key).isSome :=
        List.find?_isSome.mpr ⟨r, hr, by simp [hkey]⟩
      obtain ⟨a, ha⟩ := Option.isSome_iff_exists.mp hsome
      have hakey : key? a = some key := by simpa using List.find?_some ha
      simp only [ha, Option.map_some, Option.getD_some]
      by_contra hprimes
      obtain ⟨v, hfr, hwr, hne, rfl⟩ := key?_eq_some_iff.mp hkey
      obtain ⟨w, hfa, hwa, -, heq⟩ := key?_eq_some_iff.mp hakey
      obtain ⟨hgroup, hit⟩ := Prod.mk.inj heq
      exact hagree r hr a (List.mem_of_find?_eq_some ha) ⟨v, w, hfr, hfa, hwr, hwa,
        hgroup, hne, hit, hprimes⟩

/-! ## What does not matter -/

theorem findFrom_filter {kept : Result → Bool} (seen : List ((Text × UInt64) × Result))
    (h : ∀ r ∈ results, kept r = false → key? r = none) :
    findFrom seen (results.filter kept) = findFrom seen results := by
  induction results generalizing seen with
  | nil => rfl
  | cons r rs ih =>
    obtain ⟨hr, hrs⟩ := List.forall_mem_cons.mp h
    cases hkept : kept r with
    | false =>
      rw [List.filter_cons_of_neg (by simp [hkept]), findFrom, hr hkept]
      exact ih seen hrs
    | true =>
      rw [List.filter_cons_of_pos hkept, findFrom, findFrom]
      simp only [ih _ hrs]

/-- Results without a key can be left out. -/
theorem find?_filter {kept : Result → Bool} (h : ∀ r ∈ results, kept r = false → key? r = none) :
    find? (results.filter kept) = find? results :=
  findFrom_filter [] h

theorem key?_eq_none (h : r.fault ≠ none ∨ ∀ w, r.workload = some w → w.group = ∅) :
    key? r = none := by
  cases hkey : key? r with
  | none => rfl
  | some key =>
    obtain ⟨w, hf, hw, hne, -⟩ := key?_eq_some_iff.mp hkey
    rcases h with h | h
    · exact absurd hf h
    · exact absurd (h w hw) hne

/-- Results with different numbers of iterations do not disagree. -/
theorem find?_eq_none_iff_of_iterations :
    find? results = none ↔ ∀ k, find? (results.filter fun r => r.report.iterations = k) = none := by
  simp only [find?_eq_none_iff, List.mem_filter, decide_eq_true_eq]
  constructor
  · rintro h k a ⟨ha, -⟩ b ⟨hb, -⟩
    exact h a ha b hb
  · rintro h a ha b hb hbetween
    have hit : a.report.iterations = b.report.iterations := by
      obtain ⟨v, w, -, -, -, -, -, -, hit, -⟩ := hbetween
      exact hit
    exact h _ a ⟨ha, hit⟩ b ⟨hb, rfl⟩ hbetween

/-- **Nothing is found exactly if any two results agree that must agree**: those of workloads of one
group that were completed with equally many iterations. So the order of the results does not matter,
and each number of iterations can be looked at by itself. Results that failed, and those without a
workload or a group, can be left out and what is found stays the same. -/
theorem consistent_iff_pairwise (results : List Result) :
    (find? results = none ↔ ∀ a ∈ results, ∀ b ∈ results, ∀ v w : Workload,
        a.fault = none → b.fault = none →
      a.workload = some v → b.workload = some w → v.group = w.group → v.group ≠ ∅ →
        a.report.iterations = b.report.iterations →
          a.report.outcome.primes = b.report.outcome.primes) ∧
    (∀ results' : List Result, results'.Perm results →
      (find? results' = none ↔ find? results = none)) ∧
    (∀ kept : Result → Bool,
      (∀ r ∈ results, kept r = false → r.fault ≠ none ∨ ∀ w, r.workload = some w → w.group = ∅) →
        find? (results.filter kept) = find? results) ∧
    (find? results = none ↔
      ∀ k, find? (results.filter fun r => r.report.iterations = k) = none) := by
  refine ⟨?_, fun results' hperm => ?_, fun kept h => ?_, find?_eq_none_iff_of_iterations⟩
  · simp only [find?_eq_none_iff, not_between_iff]
  · simp only [find?_eq_none_iff, hperm.mem_iff]
  · exact find?_filter fun r hr hkept => key?_eq_none (h r hr hkept)

end Disagreement

end Stopwatch
