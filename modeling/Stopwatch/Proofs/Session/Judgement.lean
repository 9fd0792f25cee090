import Stopwatch.Proofs.Fault.Causes
import Stopwatch.Proofs.Session.Consistency
import Stopwatch.Proofs.Session.Ranking

/-!
# The judgement of a session

Results are judged in one of three ways (`judged_ofResults`): nothing was completed, or two of them
disagree, or what was completed is presented. What a verdict says follows from these three:

* its exit code is that of a disagreement, or else that of the first failure of the ranking
(`exit_ofResults`);
* if nothing was completed, the exit code is not that of success as soon as there is a failure at
  all (`exit_of_nothing_completed`), so only a session without workloads succeeds while it says that
  it failed;
* what is presented is the completed part of the ranking, or nothing at all (`presentation_order`).
-/

namespace Stopwatch.Verdict

open Rounding

variable {results : List Result} {a b r : Result} {v : Verdict}

/-- The results side by side, if there is more than one. -/
def sideBySide (results : List Result) : List Announcement :=
  if 1 < results.length then [.table results] else []

theorem eq_table_of_mem_sideBySide {x : Announcement} (h : x ∈ sideBySide results) :
    x = .table results := by
  unfold sideBySide at h
  split at h
  · exact List.mem_singleton.mp h
  · exact absurd h List.not_mem_nil

/-- The ways in which results are judged. -/
inductive Judged (results : List Result) : Verdict → Prop where
  | nothingCompleted (hnone : ∀ r ∈ results, r.fault ≠ none) : Judged results
      { exit := Fault.exitCodeOf (firstFault (rank results))
        ranking := rank results
        announcements := sideBySide (rank results) ++
          [.nothingCompleted, .failure (firstFault (rank results))] }
  | disagreement {d : Disagreement} (hsome : ∃ r ∈ results, r.fault = none)
      (hfound : Disagreement.find? (rank results) = some d) : Judged results
      { exit := ExitCode.mismatch
        ranking := rank results
        announcements := sideBySide (rank results) ++ [.disagreement d] }
  | presented (hsome : ∃ r ∈ results, r.fault = none)
      (hfound : Disagreement.find? (rank results) = none) :
      Judged results
      { exit := Fault.exitCodeOf (firstFault (rank results))
        ranking := rank results
        announcements := sideBySide (rank results) ++
          ((rank results).filter Result.succeeded).map .result ++
          ((firstFault (rank results)).map fun f => Announcement.failure (some f)).toList }

theorem judged_ofResults (results : List Result) : Judged results (ofResults results) := by
  have hany : (rank results).any Result.succeeded = true ↔ ∃ r ∈ results, r.fault = none := by
    simp only [List.any_eq_true, mem_rank, Result.succeeded, Option.isNone_iff_eq_none]
  unfold ofResults
  dsimp only
  split
  · next hnone =>
    refine .nothingCompleted fun r hr hf => ?_
    rw [hany.mpr ⟨r, hr, hf⟩] at hnone
    exact absurd hnone (by decide)
  · next hnot =>
    have hsome : ∃ r ∈ results, r.fault = none := hany.mp (by simpa using hnot)
    cases hfound : Disagreement.find? (rank results) with
    | some d => exact .disagreement hsome hfound
    | none =>
      have := Judged.presented hsome hfound
      cases hfault : firstFault (rank results) <;>
        simpa [hfault, Fault.exitCodeOf, sideBySide] using this

theorem Judged.ranking_eq (h : Judged results v) : v.ranking = rank results := by
  cases h <;> rfl

theorem find?_rank_eq_none_iff :
    Disagreement.find? (rank results) = none ↔ ¬ ∃ a ∈ results, ∃ b ∈ results,
      Disagreement.Between a b := by
  rw [Disagreement.find?_eq_none_iff]
  simp only [mem_rank, not_exists, not_and]

/-- Where nothing was completed, nothing can disagree. -/
theorem find?_rank_eq_none (hnone : ∀ r ∈ results, r.fault ≠ none) :
    Disagreement.find? (rank results) = none := by
  rw [find?_rank_eq_none_iff]
  rintro ⟨a, ha, b, -, _, _, hfa, -⟩
  exact hnone a ha hfa

/-- Results that all report one number of primes agree. -/
theorem agree_of_primes {n : Int} (h : ∀ r ∈ results, r.report.outcome.primes = n) :
    ¬ ∃ a ∈ results, ∃ b ∈ results, Disagreement.Between a b := by
  rintro ⟨a, ha, b, hb, _, _, -, -, -, -, -, -, -, hprimes⟩
  exact hprimes ((h a ha).trans (h b hb).symm)

/-! ## The exit code -/

theorem Judged.exit_eq (h : Judged results v) :
    v.exit = if Disagreement.find? (rank results) = none then Fault.exitCodeOf
      (firstFault (rank results))
      else ExitCode.mismatch := by
  cases h with
  | nothingCompleted hnone => rw [if_pos (find?_rank_eq_none hnone)]
  | disagreement _ hfound => rw [if_neg (by simp [hfound])]
  | presented _ hfound => rw [if_pos hfound]

/-- The exit code says that two results disagree, or else what the first failure of the ranking was.
-/
theorem exit_ofResults (results : List Result) :
    ((∃ a ∈ results, ∃ b ∈ results, Disagreement.Between a b) →
        (ofResults results).exit = ExitCode.mismatch) ∧
      ((¬ ∃ a ∈ results, ∃ b ∈ results, Disagreement.Between a b) →
        (ofResults results).exit = Fault.exitCodeOf (firstFault (rank results))) := by
  rw [(judged_ofResults results).exit_eq]
  constructor
  · intro hbetween
    rw [if_neg fun hfound => find?_rank_eq_none_iff.mp hfound hbetween]
  · intro hagree
    rw [if_pos (find?_rank_eq_none_iff.mpr hagree)]

/-! ## Nothing completed -/

theorem firstFault_rank_eq_none_iff (hnone : ∀ r ∈ results, r.fault ≠ none) :
    firstFault (rank results) = none ↔ results = [] := by
  rw [firstFault, List.findSome?_eq_none_iff]
  simp only [mem_rank]
  constructor
  · intro h
    exact List.eq_nil_iff_forall_not_mem.mpr fun r hr => hnone r hr (h r hr)
  · rintro rfl
    simp

theorem exitCodeOf_eq_success_iff {f : Option Fault} :
    Fault.exitCodeOf f = ExitCode.success ↔ f = none := by
  cases f with
  | none => exact ⟨fun _ => rfl, fun _ => rfl⟩
  | some f => exact ⟨fun h => absurd h (Fault.exitCode_ne_success f), fun h => absurd h (by simp)⟩

theorem Judged.announcements_eq (h : Judged results v) (hnone : ∀ r ∈ results, r.fault ≠ none) :
    v.announcements = sideBySide (rank results) ++
      [.nothingCompleted, .failure (firstFault (rank results))] := by
  cases h with
  | nothingCompleted => rfl
  | disagreement hsome =>
    obtain ⟨r, hr, hf⟩ := hsome
    exact absurd hf (hnone r hr)
  | presented hsome =>
    obtain ⟨r, hr, hf⟩ := hsome
    exact absurd hf (hnone r hr)

theorem Judged.nothingCompleted_mem_iff (h : Judged results v) :
    Announcement.nothingCompleted ∈ v.announcements ↔ ∀ r ∈ results, r.fault ≠ none := by
  have hside : Announcement.nothingCompleted ∉ sideBySide (rank results) := fun hmem =>
    absurd (eq_table_of_mem_sideBySide hmem) (by simp)
  constructor
  · intro hmem
    cases h with
    | nothingCompleted hnone => exact hnone
    | disagreement => simp [hside] at hmem
    | presented => simp [hside] at hmem
  · intro hnone
    simp [h.announcements_eq hnone]

/-- **If nothing was completed, the exit code is not that of success as soon as there is a result.**
That nothing was completed is announced exactly if no result succeeded. The exit code is then the
one that goes with the answer to the failure that is announced, in whatever colors and however long
after the start it is given, and it is that of success only if there are no results. -/
theorem exit_of_nothing_completed (results : List Result) :
    let v := ofResults results
    (Announcement.nothingCompleted ∈ v.announcements ↔ ∀ r ∈ results, r.fault ≠ none) ∧
      ((∀ r ∈ results, r.fault ≠ none) →
        (∃ f, Announcement.failure f ∈ v.announcements ∧
            ∀ theme spent, (Fault.handle theme spent f).2 = v.exit) ∧
          (v.exit ≠ ExitCode.success ↔ results ≠ [])) := by
  intro v
  have hjudged : Judged results v := judged_ofResults results
  refine ⟨hjudged.nothingCompleted_mem_iff, fun hnone => ⟨⟨firstFault (rank results), ?_, ?_⟩, ?_⟩⟩
  · simp [hjudged.announcements_eq hnone]
  · intro theme spent
    rw [Fault.handle_snd, hjudged.exit_eq, if_pos (find?_rank_eq_none hnone)]
  · rw [hjudged.exit_eq, if_pos (find?_rank_eq_none hnone), ne_eq, exitCodeOf_eq_success_iff,
      firstFault_rank_eq_none_iff hnone]

/-- A session without workloads says that nothing was completed, and succeeds. -/
theorem success_of_no_results :
    ¬ ∀ results, (∀ r ∈ results, r.fault ≠ none) → (ofResults results).exit ≠ ExitCode.success := by
  intro h
  have hexit : (ofResults []).exit = Fault.exitCodeOf (firstFault (rank [])) :=
    (exit_ofResults []).2 (by simp)
  have hfault : firstFault (rank []) = none := (firstFault_rank_eq_none_iff (by simp)).mpr rfl
  exact h [] (List.forall_mem_nil _) (by rw [hexit, hfault]; rfl)

/-! ## Presentation -/

/-- The result that an announcement presents by itself. -/
def presented? : Announcement → Option Result
  | .result r => some r
  | _ => none

/-- The results that are presented one by one, in this order. -/
def shown (v : Verdict) : List Result := v.announcements.filterMap presented?

theorem filter_rank_eq_nil (hnone : ∀ r ∈ results, r.fault ≠ none) :
    (rank results).filter Result.succeeded = [] := by
  refine List.filter_eq_nil_iff.mpr fun r hr hs => ?_
  exact hnone r (mem_rank.mp hr) (by simpa [Result.succeeded] using hs)

theorem Judged.shown_eq (h : Judged results v) :
    v.shown = if Disagreement.find? (rank results) = none then (rank results).filter
      Result.succeeded else [] := by
  have hside : (sideBySide (rank results)).filterMap presented? = [] :=
    List.filterMap_eq_nil_iff.mpr fun x hx => eq_table_of_mem_sideBySide hx ▸ rfl
  cases h with
  | nothingCompleted hnone =>
    rw [if_pos (find?_rank_eq_none hnone), filter_rank_eq_nil hnone, shown,
      List.filterMap_append, hside]
    rfl
  | disagreement _ hfound =>
    rw [if_neg (by simp [hfound]), shown, List.filterMap_append, hside]
    rfl
  | presented _ hfound =>
    have hresult : (fun r => presented? (.result r)) = some := rfl
    rw [if_pos hfound, shown, List.filterMap_append, List.filterMap_append,
      hside, List.filterMap_map, Function.comp_def, hresult, List.filterMap_some, List.nil_append]
    cases firstFault (rank results) <;> simp [presented?]

/-- Two results rank alike if both or neither succeeded and they have the same mean. -/
def ranksLike (a b : Result) : Bool :=
  a.succeeded == b.succeeded && a.report.summary.mean == b.report.summary.mean

theorem ranksLike_iff (ha : a.report.summary.mean.isNaN = false)
    (hb : b.report.summary.mean.isNaN = false) :
    ranksLike a b = true ↔ rankKey b = rankKey a := by
  have hmean := beq_iff ha hb
  unfold ranksLike rankKey Result.succeeded
  rw [Bool.and_eq_true, hmean]
  cases a.fault <;> cases b.fault <;> simp [eq_comm]

theorem of_rankKey_le (ha : a.report.summary.mean.isNaN = false)
    (hb : b.report.summary.mean.isNaN = false) (h : rankKey a ≤ rankKey b) :
        (b.succeeded = true → a.succeeded = true) ∧
      (a.succeeded = b.succeeded → a.report.summary.mean ≤ b.report.summary.mean) := by
  have hkey : a.fault.isSome < b.fault.isSome ∨
      a.fault.isSome = b.fault.isSome ∧ value a.report.summary.mean ≤ value b.report.summary.mean :=
    Prod.Lex.toLex_le_toLex.mp h
  have hsucc : ∀ r : Result, r.succeeded = !r.fault.isSome := by
    intro r
    unfold Result.succeeded
    cases r.fault <;> rfl
  rw [le_iff ha hb, hsucc, hsucc]
  rcases hkey with hlt | ⟨heq, hle⟩
  · obtain ⟨hfa, hfb⟩ := Bool.lt_iff.mp hlt
    rw [hfa, hfb]
    exact ⟨fun _ => rfl, fun heq => absurd heq (by decide)⟩
  · rw [heq]
    exact ⟨id, fun _ => hle⟩

/-- **Results are presented by rank.** If all means are numbers, the ranking holds all results, the
successes before the failures, each part with means that do not decrease and results that rank alike
in their old order. Unless two results disagree, exactly the successes are presented, in the order
of the ranking and whether or not others failed. If two disagree, none is. -/
theorem presentation_order (results : List Result)
    (h : ∀ r ∈ results, r.report.summary.mean.isNaN = false) :
    let v := ofResults results
    v.ranking = Sorting.byBlocks before results ∧ v.ranking.Perm results ∧
      v.ranking.Pairwise (fun a b => (b.succeeded = true → a.succeeded = true) ∧
        (a.succeeded = b.succeeded → a.report.summary.mean ≤ b.report.summary.mean)) ∧
      (∀ r ∈ results, v.ranking.filter (ranksLike r) = results.filter (ranksLike r)) ∧
      ((¬ ∃ a ∈ results, ∃ b ∈ results, Disagreement.Between a b) →
        v.shown = v.ranking.filter Result.succeeded) ∧
      ((∃ a ∈ results, ∃ b ∈ results, Disagreement.Between a b) → v.shown = []) := by
  intro v
  have hjudged : Judged results v := judged_ofResults results
  have hperm := perm_rank results
  have hsorts : Sorting.Sorts rankKey results (rank results) :=
    sorts_rank (List.all_eq_true.mpr fun r hr => by simpa using h r hr)
  rw [hjudged.ranking_eq, hjudged.shown_eq]
  refine ⟨rank_eq_byBlocks results, hperm, ?_, fun r hr => ?_, fun hagree => ?_, fun hbetween => ?_⟩
  · exact hsorts.sorted.imp_of_mem fun {a b} ha hb =>
      of_rankKey_le (h a (hperm.mem_iff.mp ha)) (h b (hperm.mem_iff.mp hb))
  · have halike : ∀ x ∈ results, ranksLike r x = decide (rankKey x = rankKey r) := by
      intro x hx
      rw [Bool.eq_iff_iff, ranksLike_iff (h r hr) (h x hx), decide_eq_true_eq]
    rw [List.filter_congr halike, List.filter_congr fun x hx => halike x (hperm.mem_iff.mp hx)]
    exact hsorts.stable _
  · rw [if_pos (find?_rank_eq_none_iff.mpr hagree)]
  · rw [if_neg fun hfound => find?_rank_eq_none_iff.mp hfound hbetween]

/-- The result of a workload whose runs had this mean, and that may have failed after them. -/
def timed (w : Workload) (mean : Float) (fault : Option Fault) : Result :=
  ⟨some w, { name := w.name, summary := { mean } }, fault⟩

/-- A failure that was the fastest is ranked last, and does not keep the others from being
presented. -/
theorem presentation_order_around_failure :
    let results := [timed .sieve 2.0 none, timed .primeCount 0.5 (some .deadline),
      timed .fibonacci 1.0 none]
    (∀ r ∈ results, r.report.summary.mean.isNaN = false) ∧
      (ofResults results).shown = [timed .fibonacci 1.0 none, timed .sieve 2.0 none] := by
  intro results
  have hnum : ∀ r ∈ results, r.report.summary.mean.isNaN = false := by
    simp only [results, List.forall_mem_cons]
    exact ⟨rfl, rfl, rfl, List.forall_mem_nil _⟩
  obtain ⟨hrank, -, -, -, hshown, -⟩ := presentation_order results hnum
  have hagree : ¬ ∃ a ∈ results, ∃ b ∈ results, Disagreement.Between a b :=
    agree_of_primes (n := 0) (by simp [results, timed])
  have h1 : before (timed .primeCount 0.5 (some .deadline)) (timed .sieve 2.0 none) = false := rfl
  have h2 : before (timed .fibonacci 1.0 none) (timed .primeCount 0.5 (some .deadline)) = true :=
    rfl
  have h3 : before (timed .fibonacci 1.0 none) (timed .sieve 2.0 none) = true := rfl
  have hsorted : Sorting.byBlocks before results =
      [timed .fibonacci 1.0 none, timed .sieve 2.0 none,
        timed .primeCount 0.5 (some .deadline)] := by
    simp [results, Sorting.byBlocks, Sorting.blocks, Sorting.mergeAll, Sorting.byInsertion,
      Sorting.insertBack, h1, h2, h3]
  refine ⟨hnum, ?_⟩
  rw [hshown hagree, hrank, hsorted]
  rfl

end Stopwatch.Verdict
