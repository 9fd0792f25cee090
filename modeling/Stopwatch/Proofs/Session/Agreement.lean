import Stopwatch.Proofs.Prime.Counting
import Stopwatch.Proofs.Session.Judgement
import Stopwatch.Proofs.Session.Workloads
import Stopwatch.Proofs.Settings.Limits

/-!
# The built-in workloads agree

Within their limits, the workloads that count primes find all of them (`primes_primeCount`,
`primes_sieve`), and so does a prime scan that starts at one (`primes_primeScan`). A benchmark
refuses more iterations than its workload may be run with, so a result that was completed reports
the number of primes up to its number of iterations, and whatever built-in workloads a session
times, no two of them disagree (`prime_workloads_agree`).
-/

namespace Stopwatch

namespace Workload

open Stopwatch.Prime

variable {k : UInt64}

theorem toInt_toInt64 (h : k.toNat < 2 ^ 63) : k.toInt64.toInt = k.toNat := by
  have hmod : k.toInt64.toInt = (k.toNat : ℤ).bmod (2 ^ 64) := BitVec.toInt_eq_toNat_bmod _
  rw [hmod]
  exact Int.bmod_eq_of_le (by omega) (by omega)

theorem primes_primeCount (h : k ≤ primeCount.limit) (i : ℕ) :
    ((primeCount.plan k).reply i).outcome.primes = upTo k.toNat := by
  show (countUpTo k : ℤ) = _
  rw [countUpTo_eq_upTo (toNat_lt_of_le_limit h)]

theorem primes_sieve (h : k ≤ sieve.limit) (i : ℕ) :
    ((sieve.plan k).reply i).outcome.primes = upTo k.toNat := by
  have hbound : k.toNat ≤ 2 ^ 30 := UInt64.le_iff_toNat_le.mp h
  show (((countBySieve? k.toInt64).getD 0 : ℕ) : ℤ) = _
  rw [countBySieve?_eq (toInt_toInt64 (toNat_lt_of_le_limit h)) (by omega), Option.getD_some]

theorem primes_primeScan (printing : Bool) (h1 : 1 ≤ k)
    (h : k - 1 ≤ (primeScan 1 printing).limit) (i : ℕ) :
    (((primeScan 1 printing).plan (k - 1)).reply i).outcome.primes = upTo k.toNat := by
  have hlt : k.toNat < 2 ^ 63 := by
    have hbound := toNat_bound_primeScan 1 printing
    have hle : ¬ (primeScan 1 printing).bound < k - 1 :=
      fun hlt => absurd (limit_lt_iff.mpr (.inl hlt)) (UInt64.not_lt.mpr h)
    rw [UInt64.lt_iff_toNat_lt, toNat_sub_one (UInt64.le_iff_toNat_le.mp h1)] at hle
    rw [show (1 : Int64).toInt = 1 from rfl] at hbound
    omega
  show ((scanFrom (k - 1).toNat 1 0).1 : ℤ) = _
  rw [fst_scanFrom_one h1, countUpTo_eq_upTo hlt]

/-- A built-in workload that has to agree with others counts primes. -/
theorem primes_of_builtin {options : WorkloadOptions} {name : Text} {w : Workload}
    (hw : (Registry.builtin options).get name = .ok w) (hgroup : w.group ≠ ∅)
    (h : k ≤ w.limit) (i : ℕ) :
    ((w.plan k).reply i).outcome.primes = upTo k.toNat := by
  obtain ⟨-, hmem⟩ := Registry.get_builtin_eq_ok_iff.mp hw
  simp only [List.mem_cons, List.not_mem_nil, or_false] at hmem
  rcases hmem with rfl | rfl | rfl | rfl
  · exact absurd rfl hgroup
  · exact primes_primeCount h i
  · exact absurd rfl hgroup
  · exact primes_sieve h i

end Workload

variable {σ : Type} {S : Surroundings σ}

/-- A call computes what the plan of its workload says. -/
def Surroundings.Answers (S : Surroundings σ) : Prop :=
  ∀ plan i s, (S.call plan i s).1.outcome = (plan.reply i).outcome

namespace Benchmark

variable {plan : Plan} {schedule : Schedule} {index : Int} {w : Workload} {i : ℕ}
    {s last : σ} {laps : List Lap}

theorem Laps.exists_reply (h : Laps S plan i s laps last) (hS : S.Answers) :
    ∀ l ∈ laps, ∃ j, l.reply.outcome = (plan.reply j).outcome := by
  induction h with
  | nil => simp
  | @cons i s checked begun called timed last start reply sample laps check
      clock call elapsed _ ih =>
    have hreply := hS plan i begun
    rw [call] at hreply
    exact List.forall_mem_cons.mpr ⟨⟨i, hreply⟩, ih⟩

/-- The outcome of a benchmark with a completed run is that of a call. -/
theorem Ran.exists_reply {e : Ended σ} (h : Ran S schedule w s laps last e) (hS : S.Answers)
    (hne : e.report.samples ≠ []) :
    ∃ j, e.report.outcome = ((w.plan (iterationsOf schedule w)).reply j).outcome := by
  have hlaps : laps ≠ [] := by
    rintro rfl
    exact hne h.samples
  rw [h.outcome, List.getLast?_eq_some_getLast hlaps]
  exact h.made.exists_reply hS _ (List.getLast_mem hlaps)

theorem exists_reply_of_samples (hS : S.Answers)
    (hne : (run S schedule index w s).report.samples ≠ []) :
    ∃ j, (run S schedule index w s).report.outcome =
      ((w.plan (iterationsOf schedule w)).reply j).outcome := by
  rcases refusal?_cases schedule w with ⟨-, field, message, href⟩ | ⟨hr, href⟩
  · rw [run_of_refusal href] at hne
    exact absurd rfl hne
  · obtain ⟨laps, last, hran⟩ := run_ran S index s href hr
    exact hran.exists_reply hS hne

/-- A benchmark without a completed run has computed nothing. -/
theorem outcome_of_no_samples (h : (run S schedule index w s).report.samples = []) :
    (run S schedule index w s).report.outcome = {} := by
  rcases refusal?_cases schedule w with ⟨-, field, message, href⟩ | ⟨hr, href⟩
  · rw [run_of_refusal href]
  · obtain ⟨laps, last, hran⟩ := run_ran S index s href hr
    rw [hran.samples, List.map_eq_nil_iff] at h
    rw [hran.outcome, h]
    rfl

/-- A benchmark that was completed had a number of iterations within the limit, and its outcome is
that of a call. -/
theorem of_fault_eq_none (hS : S.Answers) (h : (run S schedule index w s).fault = none) :
    (run S schedule index w s).report.iterations ≤ w.limit ∧
      ∃ j, (run S schedule index w s).report.outcome =
        ((w.plan (run S schedule index w s).report.iterations).reply j).outcome := by
  rcases refusal?_cases schedule w with ⟨-, field, message, href⟩ | ⟨hr, href⟩
  · rw [run_of_refusal href] at h
    exact absurd h (by simp)
  · obtain ⟨laps, last, hran⟩ := run_ran S index s href hr
    have hruns : ¬ schedule.runs < 1 := fun hlt => hr (.inl hlt)
    have hlimit : ¬ w.limit < iterationsOf schedule w := fun hlt => hr (.inr hlt)
    have hlength := hran.fault_eq_none_iff.mp h
    have hne : (run S schedule index w s).report.samples ≠ [] := by
      intro hnil
      rw [hnil, List.length_nil] at hlength
      omega
    rw [hran.iterations]
    exact ⟨UInt64.not_lt.mp hlimit, hran.exists_reply hS hne⟩

end Benchmark

namespace Session

variable {schedule : Schedule} {w : Workload} {ws : List Workload} {r : Result}

/-- A result that was completed is that of a benchmark. -/
theorem exists_run_of_mem_results (ws : List Workload) :
    ∀ (index : Int) (s : σ), r ∈ (runFrom S schedule index ws s).results → r.fault = none →
      ∃ w ∈ ws, ∃ (index : Int) (s : σ),
          r = ⟨some w, (Benchmark.run S schedule index w s).report, none⟩ ∧
        (Benchmark.run S schedule index w s).fault = none := by
  induction ws with
  | nil => simp [runFrom]
  | cons w ws ih =>
    intro index s hr hf
    have hlater : ∀ {index : Int} {s : σ}, r ∈ (runFrom S schedule index ws s).results →
        ∃ v ∈ w :: ws, ∃ (index : Int) (s : σ),
            r = ⟨some v, (Benchmark.run S schedule index v s).report, none⟩ ∧
          (Benchmark.run S schedule index v s).fault = none := by
      intro index s hmem
      obtain ⟨v, hv, hrun⟩ := ih index s hmem hf
      exact ⟨v, List.mem_cons_of_mem w hv, hrun⟩
    rcases hcheck : S.check s with ⟨_ | cause, checked⟩
    · rw [runFrom_of_not_ended hcheck] at hr
      rcases List.mem_cons.mp hr with rfl | hmem
      · exact ⟨w, List.mem_cons_self, index, checked, by rw [← hf], hf⟩
      · exact hlater hmem
    · rw [runFrom_of_ended hcheck] at hr
      rcases List.mem_cons.mp hr with rfl | hmem
      · exact absurd hf (by simp)
      · exact hlater hmem

theorem primes_of_completed (hS : S.Answers)
    (hws : ∀ w ∈ ws, ∃ options name, (Registry.builtin options).get name = .ok w)
    (index : Int) (s : σ)
    (hr : r ∈ (runFrom S schedule index ws s).results) (hf : r.fault = none)
    (hw : r.workload = some w)
    (hgroup : w.group ≠ ∅) : r.report.outcome.primes = Prime.upTo r.report.iterations.toNat := by
  obtain ⟨v, hv, index, s, rfl, hnone⟩ := exists_run_of_mem_results ws index s hr hf
  obtain rfl : v = w := Option.some.inj hw
  obtain ⟨options, name, hget⟩ := hws v hv
  obtain ⟨hlimit, j, hj⟩ := Benchmark.of_fault_eq_none hS hnone
  rw [hj]
  exact Workload.primes_of_builtin hget hgroup hlimit j

/-- No two results of built-in workloads disagree, in whatever order they are. -/
theorem find?_eq_none_of_perm (hS : S.Answers)
    (hws : ∀ w ∈ ws, ∃ options name, (Registry.builtin options).get name = .ok w)
    (index : Int) (s : σ)
    {results : List Result} (hperm : results.Perm (runFrom S schedule index ws s).results) :
    Disagreement.find? results = none := by
  rw [Disagreement.find?_eq_none_iff]
  rintro a ha b hb ⟨v, w, hfa, hfb, hwa, hwb, hgroup, hne, hit, hprimes⟩
  have h1 := primes_of_completed hS hws index s (hperm.mem_iff.mp ha) hfa hwa hne
  have h2 := primes_of_completed hS hws index s (hperm.mem_iff.mp hb) hfb hwb (hgroup ▸ hne)
  rw [← hit] at h2
  exact hprimes (h1.trans h2.symm)

/-- **The built-in workloads agree.** Each finds all primes up to its number of iterations, as far
as its limit goes, and a scan from one needs one iteration less. So no disagreement is found among
the results of built-in workloads, in the order in which they came about or as they are ranked. -/
theorem prime_workloads_agree (S : Surroundings σ) (hS : S.Answers)
    (schedule : Schedule) (ws : List Workload)
    (hws : ∀ w ∈ ws, ∃ options name, (Registry.builtin options).get name = .ok w) (s : σ) :
    (∀ k ≤ Workload.primeCount.limit, ∀ i,
      ((Workload.primeCount.plan k).reply i).outcome.primes =
      ((Finset.Icc 2 k.toNat).filter Nat.Prime).card) ∧
    (∀ k ≤ Workload.sieve.limit, ∀ i,
      ((Workload.sieve.plan k).reply i).outcome.primes =
      ((Finset.Icc 2 k.toNat).filter Nat.Prime).card) ∧
    (∀ printing, ∀ k, 1 ≤ k → k - 1 ≤ (Workload.primeScan 1 printing).limit → ∀ i,
      (((Workload.primeScan 1 printing).plan (k - 1)).reply i).outcome.primes =
        ((Finset.Icc 2 k.toNat).filter Nat.Prime).card) ∧
    Disagreement.find? (run S schedule ws s).results = none ∧
    Disagreement.find? (Verdict.rank (run S schedule ws s).results) = none := by
  refine ⟨fun k h i => Workload.primes_primeCount h i, fun k h i => Workload.primes_sieve h i,
    fun printing k h1 h i => Workload.primes_primeScan printing h1 h i, ?_, ?_⟩
  · exact find?_eq_none_of_perm hS hws 0 s (.refl _)
  · exact find?_eq_none_of_perm hS hws 0 s (Verdict.perm_rank _)

/-- All built-in workloads with the greatest number of iterations that the sieve may be run with. -/
theorem prime_workloads_agree_of_all :
    ((Workload.sieve.plan 1073741824).reply 0).outcome.primes =
      ((Finset.Icc 2 1073741824).filter Nat.Prime).card ∧
    Disagreement.find? (Verdict.rank (run World.surroundings ⟨3, 1073741824⟩
      [Workload.fibonacci, Workload.primeCount, Workload.primeScan 1 false, Workload.sieve]
      {}).results) = none := by
  have hws : ∀ w ∈ [Workload.fibonacci, Workload.primeCount,
      Workload.primeScan 1 false, Workload.sieve],
      ∃ options name, (Registry.builtin options).get name = .ok w :=
    fun w hw => ⟨{}, w.name, Registry.get_builtin_eq_ok_iff.mpr ⟨rfl, hw⟩⟩
  obtain ⟨-, hsieve, -, -, hrank⟩ :=
    prime_workloads_agree World.surroundings (fun _ _ _ => rfl) ⟨3, 1073741824⟩ _ hws {}
  exact ⟨hsieve 1073741824 (by decide) 0, hrank⟩

end Session

end Stopwatch
