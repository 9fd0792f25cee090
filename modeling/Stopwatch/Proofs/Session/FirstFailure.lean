import Stopwatch.Proofs.Session.Judgement

/-!
# The first failure

When a session fails, its exit code is that of the failure that comes first in the ranking, not of
the one that came about first. If all means are numbers, that is the first of the failures with the
least mean (`foremost_of_firstFault_rank`), so the exit code tells of the first failure only if both
have the same exit code (`exit_of_failure`).

The results of a session that ran its course are such that it does (`Orderly`,
`exitCodeOf_firstFault_rank`).
-/

namespace Stopwatch.Verdict

open Rounding

variable {results before after : List Result} {r r' : Result} {f f' : Fault}

theorem firstFault_eq_some_iff : firstFault results = some f ↔
    ∃ before r after, results = before ++ r :: after ∧ r.fault = some f ∧
      ∀ x ∈ before, x.fault = none :=
  List.findSome?_eq_some_iff

/-! ## The foremost failure -/

/-- A failure, with its fault, that is the first one with the least mean of all failures. -/
def Foremost (results : List Result) (r : Result) (f : Fault) : Prop :=
  ∃ before after, results = before ++ r :: after ∧ r.fault = some f ∧
    (∀ x ∈ before, x.fault ≠ none → value r.report.summary.mean < value x.report.summary.mean) ∧
    ∀ x ∈ after, x.fault ≠ none → value r.report.summary.mean ≤ value x.report.summary.mean

theorem Foremost.mem (h : Foremost results r f) : r ∈ results := by
  obtain ⟨before, after, rfl, -⟩ := h
  simp

theorem Foremost.fault_eq (h : Foremost results r f) : r.fault = some f := by
  obtain ⟨before, after, -, hf, -⟩ := h
  exact hf

/-- No failure is faster than the foremost one. -/
theorem Foremost.value_le {x : Result} (h : Foremost results r f) (hx : x ∈ results)
    (hfail : x.fault ≠ none) :
    value r.report.summary.mean ≤ value x.report.summary.mean := by
  obtain ⟨before, after, rfl, -, hlt, hle⟩ := h
  rcases List.mem_append.mp hx with hin | hin
  · exact (hlt x hin hfail).le
  · rcases List.mem_cons.mp hin with rfl | hin
    · exact le_rfl
    · exact hle x hin hfail

theorem Foremost.unique (h : Foremost results r f) (h' : Foremost results r' f') : r = r' := by
  have hfail : r.fault ≠ none := by simp [h.fault_eq]
  have hfail' : r'.fault ≠ none := by simp [h'.fault_eq]
  have hle := h.value_le h'.mem hfail'
  have hle' := h'.value_le h.mem hfail
  obtain ⟨before, after, rfl, -, hlt, -⟩ := h
  obtain ⟨before', after', heq, -, hlt', -⟩ := h'
  -- Whichever stands before the other would be the slower one.
  rcases List.append_eq_append_iff.mp heq with ⟨between, rfl, hrest⟩ | ⟨between, rfl, hrest⟩
  · cases between with
    | nil => exact (List.cons.inj hrest).1
    | cons x between =>
      obtain ⟨rfl, -⟩ := List.cons.inj hrest
      exact absurd (hlt' r (by simp) hfail) (not_lt.mpr hle)
  · cases between with
    | nil => exact (List.cons.inj hrest).1.symm
    | cons x between =>
      obtain ⟨rfl, -⟩ := List.cons.inj hrest
      exact absurd (hlt r' (by simp) hfail') (not_lt.mpr hle')

/-- The first failure of a ranking is no slower than any failure. -/
theorem rankKey_le_of_first {x : Result} (h : comparable results = true)
    (heq : rank results = before ++ r :: after) (hbefore : ∀ x ∈ before, x.fault = none)
    (hx : x ∈ results) (hfail : x.fault ≠ none) : rankKey r ≤ rankKey x := by
  have hpair := (sorts_rank h).sorted
  have hmem := mem_rank.mpr hx
  rw [heq] at hpair hmem
  rcases List.mem_append.mp hmem with hin | hin
  · exact absurd (hbefore x hin) hfail
  · rcases List.mem_cons.mp hin with rfl | hin
    · exact le_rfl
    · exact List.rel_of_pairwise_cons (List.pairwise_append.mp hpair).2.1 hin

theorem rankKey_le_iff (hr : r.fault ≠ none) (hr' : r'.fault ≠ none) :
    rankKey r ≤ rankKey r' ↔ value r.report.summary.mean ≤ value r'.report.summary.mean := by
  simp [rankKey, Prod.Lex.toLex_le_toLex, Option.isSome_iff_ne_none.mpr hr,
    Option.isSome_iff_ne_none.mpr hr']

/-- **The ranking puts the foremost failure first among the failures.** -/
theorem foremost_of_firstFault_rank (h : comparable results = true)
    (hf : firstFault (rank results) = some f) :
    ∃ r, Foremost results r f := by
  obtain ⟨before, r, after, heq, hr, hbefore⟩ := firstFault_eq_some_iff.mp hf
  have hfail : r.fault ≠ none := by simp [hr]
  -- Results that rank alike keep their order, so `r` is also the first with its key before the
  -- ranking.
  have hranked : (rank results).filter (fun x => rankKey x = rankKey r) =
      r :: after.filter (fun x => rankKey x = rankKey r) := by
    have hnil : before.filter (fun x => rankKey x = rankKey r) = [] := by
      refine List.filter_eq_nil_iff.mpr fun x hx hkey => ?_
      have hfst := congrArg (fun k => (ofLex k).1) (of_decide_eq_true hkey)
      simp [rankKey, hbefore x hx, hr] at hfst
    rw [heq, List.filter_append, hnil, List.nil_append, List.filter_cons_of_pos (by simp)]
  rw [(sorts_rank h).stable, List.filter_eq_cons_iff] at hranked
  obtain ⟨earlier, later, rfl, hearlier, -⟩ := hranked
  refine ⟨r, earlier, later, rfl, hr, fun x hx hxf => ?_, fun x hx hxf => ?_⟩
  · have hle := rankKey_le_of_first h heq hbefore (List.mem_append_left _ hx) hxf
    have hne : rankKey x ≠ rankKey r := by simpa using hearlier x hx
    exact lt_of_not_ge fun hge => hne (le_antisymm ((rankKey_le_iff hxf hfail).mpr hge) hle)
  · have hle :=
      rankKey_le_of_first h heq hbefore (List.mem_append_right _ (List.mem_cons_of_mem r hx)) hxf
    exact (rankKey_le_iff hfail hxf).mp hle

theorem exists_firstFault_rank (hfail : ∃ r ∈ results, r.fault ≠ none) :
    ∃ f, firstFault (rank results) = some f := by
  obtain ⟨r, hmem, hr⟩ := hfail
  refine Option.isSome_iff_exists.mp (List.findSome?_isSome_iff.mpr ⟨r, mem_rank.mpr hmem, ?_⟩)
  exact Option.isSome_iff_ne_none.mpr hr

/-- If no two results disagree, the exit code is that of the foremost failure. -/
theorem exit_of_foremost (h : comparable results = true)
    (hagree : ¬ ∃ a ∈ results, ∃ b ∈ results, Disagreement.Between a b)
    (hf : Foremost results r f) :
    (ofResults results).exit = f.exitCode := by
  obtain ⟨g, hg⟩ := exists_firstFault_rank ⟨r, hf.mem, by simp [hf.fault_eq]⟩
  obtain ⟨r', hr'⟩ := foremost_of_firstFault_rank h hg
  obtain rfl := hf.unique hr'
  obtain rfl : f = g := Option.some.inj (hf.fault_eq.symm.trans hr'.fault_eq)
  rw [(exit_ofResults results).2 hagree, hg]
  rfl

/-! ## Orderly results -/

/-- Results in the order in which they came about, as far as failures go: the first failure has no
mean above zero, or all failures after it have its exit code. -/
inductive Orderly : List Result → Prop where
  | nil : Orderly []
  | completed {r : Result} {rs : List Result} (h : r.fault = none)
      (rest : Orderly rs) : Orderly (r :: rs)
  | failed {r : Result} {rs : List Result} {f : Fault} (h : r.fault = some f)
      (rest : value r.report.summary.mean ≤ 0 ∨ ∀ x ∈ rs, ∀ g, x.fault = some g →
        g.exitCode = f.exitCode) :
      Orderly (r :: rs)

theorem Orderly.failure (h : Orderly results) (heq : results = before ++ r :: after)
    (hbefore : ∀ x ∈ before, x.fault = none) (hr : r.fault = some f) :
    value r.report.summary.mean ≤ 0 ∨ ∀ x ∈ after, ∀ g, x.fault = some g →
      g.exitCode = f.exitCode := by
  induction h generalizing before with
  | nil => simp at heq
  | @completed x rs hx _ ih =>
    cases before with
    | nil =>
      obtain ⟨rfl, -⟩ := List.cons.inj heq
      rw [hx] at hr
      exact absurd hr (by simp)
    | cons y before =>
      obtain ⟨rfl, hrest⟩ := List.cons.inj heq
      exact ih hrest fun z hz => hbefore z (List.mem_cons_of_mem x hz)
  | @failed x rs f' hx hrest =>
    cases before with
    | nil =>
      obtain ⟨rfl, rfl⟩ := List.cons.inj heq
      rw [hx] at hr
      obtain rfl := Option.some.inj hr
      exact hrest
    | cons y before =>
      obtain ⟨rfl, -⟩ := List.cons.inj heq
      rw [hbefore x List.mem_cons_self] at hx
      exact absurd hx (by simp)

/-- **Ranking orderly results does not change the exit code of the first failure.** -/
theorem exitCodeOf_firstFault_rank (h : Orderly results)
    (hmean : ∀ r ∈ results, r.report.summary.mean.isNaN = false ∧ 0 ≤ value r.report.summary.mean) :
    Fault.exitCodeOf (firstFault (rank results)) = Fault.exitCodeOf (firstFault results) := by
  have hcomp : comparable results = true := by
    refine List.all_eq_true.mpr fun r hr => ?_
    simpa using (hmean r hr).1
  cases hexec : firstFault results with
  | none =>
    have hnone := List.findSome?_eq_none_iff.mp hexec
    have : firstFault (rank results) = none :=
      List.findSome?_eq_none_iff.mpr fun r hr => hnone r (mem_rank.mp hr)
    rw [this]
  | some f =>
    obtain ⟨before, r, after, heq, hr, hbefore⟩ := firstFault_eq_some_iff.mp hexec
    have hfail : r.fault ≠ none := by simp [hr]
    obtain ⟨g, hg⟩ := exists_firstFault_rank ⟨r, (by simp [heq] : r ∈ results), hfail⟩
    obtain ⟨r', hr'⟩ := foremost_of_firstFault_rank hcomp hg
    rw [hg]
    show g.exitCode = f.exitCode
    rcases h.failure heq hbefore hr with hzero | hsame
    · -- No failure is faster than one without a mean above zero, so the first failure is the
      -- foremost one.
      have hfirst : Foremost results r f := by
        refine ⟨before, after, heq, hr, fun x hx hxf => absurd (hbefore x hx) hxf, fun x hx _ => ?_⟩
        exact hzero.trans (hmean x (by simp [heq, hx])).2
      obtain rfl := hfirst.unique hr'
      rw [Option.some.inj (hr.symm.trans hr'.fault_eq)]
    · -- All failures have the same exit code.
      have hmem := hr'.mem
      rw [heq] at hmem
      rcases List.mem_append.mp hmem with hin | hin
      · exact absurd (hbefore r' hin) (by simp [hr'.fault_eq])
      · rcases List.mem_cons.mp hin with rfl | hin
        · rw [Option.some.inj (hr.symm.trans hr'.fault_eq)]
        · exact hsame r' hin g hr'.fault_eq

/-! ## Failures in the order of execution -/

/-- **A failed session has the exit code of one of its failures.** If all means are numbers, it is
that of the first failure with the least mean, so that of the first failure exactly if the two have
the same exit code. -/
theorem exit_of_failure (results : List Result) (hfail : ∃ r ∈ results, r.fault ≠ none)
    (hagree : ¬ ∃ a ∈ results, ∃ b ∈ results, Disagreement.Between a b) :
    let exit := (ofResults results).exit
    (∃ r ∈ results, ∃ f, r.fault = some f ∧ exit = f.exitCode) ∧
      (comparable results = true →
        (∃ r f, Foremost results r f ∧ exit = f.exitCode) ∧
          ∀ first, firstFault results = some first →
            (exit = first.exitCode ↔ ∀ r f, Foremost results r f →
              f.exitCode = first.exitCode)) := by
  intro exit
  obtain ⟨g, hg⟩ := exists_firstFault_rank hfail
  have hexit : exit = g.exitCode := by
    rw [show exit = _ from (exit_ofResults results).2 hagree, hg]
    rfl
  refine ⟨?_, fun h => ⟨?_, fun first _ => ?_⟩⟩
  · obtain ⟨before, r, after, heq, hr, -⟩ := firstFault_eq_some_iff.mp hg
    exact ⟨r, (perm_rank results).mem_iff.mp (by simp [heq]), g, hr, hexit⟩
  · obtain ⟨r, hr⟩ := foremost_of_firstFault_rank h hg
    exact ⟨r, g, hr, hexit⟩
  · constructor
    · intro hfirst r f hf
      rw [← exit_of_foremost h hagree hf, ← hfirst]
    · intro hall
      obtain ⟨r, hr⟩ := foremost_of_firstFault_rank h hg
      rw [hexit, hall r g hr]

/-- The result of a workload that failed after runs with this mean. -/
def failed (w : Workload) (mean : Float) (cause : Fault) : Result :=
  ⟨some w, { name := w.name, summary := { mean } }, some (.benchmark w.name cause)⟩

theorem not_between_failed {v w : Workload} {x y : Float} :
    ¬ ∃ a ∈ [failed v x f, failed w y f'], ∃ b ∈ [failed v x f, failed w y f'],
      Disagreement.Between a b :=
  agree_of_primes (n := 0) (by simp [failed])

/-- The failure that came about first is the faster one. -/
theorem exit_of_failure_in_order :
    (ofResults [failed .sieve 1.0 .deadline, failed .fibonacci 2.0 (.plain "out of memory")]).exit =
      ExitCode.timedOut := by
  have hforemost : Foremost [failed .sieve 1.0 .deadline,
      failed .fibonacci 2.0 (.plain "out of memory")]
      (failed .sieve 1.0 .deadline) (.benchmark "sieve" .deadline) := by
    refine ⟨[], [failed .fibonacci 2.0 (.plain "out of memory")],
      rfl, rfl, List.forall_mem_nil _, fun x hx _ => ?_⟩
    obtain rfl := List.mem_singleton.mp hx
    exact (le_iff (x := 1.0) (y := 2.0) rfl rfl).mp (by decide)
  obtain ⟨-, h⟩ :=
    exit_of_failure [failed .sieve 1.0 .deadline, failed .fibonacci 2.0 (.plain "out of memory")]
      ⟨_, List.mem_cons_self, by simp [failed]⟩ not_between_failed
  refine ((h rfl).2 (.benchmark "sieve" .deadline) rfl).mpr fun r f hf => ?_
  obtain rfl := hforemost.unique hf
  rw [← Option.some.inj (hforemost.fault_eq.symm.trans hf.fault_eq)]

/-- The failure that came about second is the faster one, and the exit code is not that of the
first. -/
theorem exit_of_failure_overtaken :
    ∃ results first, firstFault results = some first ∧
      (¬ ∃ a ∈ results, ∃ b ∈ results, Disagreement.Between a b) ∧
        (ofResults results).exit ≠ first.exitCode := by
  refine ⟨[failed .sieve 2.0 .deadline, failed .fibonacci 1.0 (.plain "out of memory")],
    .benchmark "sieve" .deadline, rfl, not_between_failed, ?_⟩
  have hforemost : Foremost [failed .sieve 2.0 .deadline,
      failed .fibonacci 1.0 (.plain "out of memory")]
      (failed .fibonacci 1.0 (.plain "out of memory"))
      (.benchmark "fibonacci" (.plain "out of memory")) := by
    refine ⟨[failed .sieve 2.0 .deadline], [], rfl, rfl, fun x hx _ => ?_, List.forall_mem_nil _⟩
    obtain rfl := List.mem_singleton.mp hx
    exact (lt_iff (x := 1.0) (y := 2.0) rfl rfl).mp (by decide)
  rw [exit_of_foremost rfl not_between_failed hforemost]
  decide

end Stopwatch.Verdict
