import Mathlib.Data.Prod.Lex
import Stopwatch.Proofs.Float.Value
import Stopwatch.Proofs.Sorting.Stability
import Stopwatch.Session

/-!
# The ranking of results

Results whose means are numbers are ranked by a key: whether they failed, and the exact value of the
mean. They are sorted stably by it (`sorts_rank`), so that those that rank alike keep their order,
and sorting them by blocks gives the same ranking (`rank_eq_byBlocks`).
-/

namespace Stopwatch

open Rounding

namespace Verdict

variable {results : List Result} {a b r : Result}

/-! ## The order -/

/-- What results are ranked by. -/
def rankKey (r : Result) : Bool ×ₗ ℚ := toLex (r.fault.isSome, value r.report.summary.mean)

theorem before_iff (ha : a.report.summary.mean.isNaN = false)
    (hb : b.report.summary.mean.isNaN = false) :
    before a b = true ↔ rankKey a < rankKey b := by
  have hlt := lt_iff ha hb
  unfold before rankKey Result.succeeded
  rw [Prod.Lex.toLex_lt_toLex]
  cases a.fault <;> cases b.fault <;> simp [hlt]

/-- Comparable results are compared by their keys. -/
theorem follows_before (h : comparable results = true) :
    Sorting.Follows rankKey before results := by
  have hnum : ∀ r ∈ results, r.report.summary.mean.isNaN = false := by
    intro r hr
    simpa using List.all_eq_true.mp h r hr
  exact fun a ha b hb => before_iff (hnum a ha) (hnum b hb)

/-- **Comparable results are ranked stably**: those that rank alike keep their order. -/
theorem sorts_rank (h : comparable results = true) :
    Sorting.Sorts rankKey results (rank results) := by
  rw [rank, if_pos h]
  exact Sorting.sorts_mergeSort_before (follows_before h)

/-- **There is one way of ranking.** Comparable or not, the results are sorted by blocks. -/
theorem rank_eq_byBlocks (results : List Result) :
    rank results = Sorting.byBlocks before results := by
  by_cases h : comparable results = true
  · exact (sorts_rank h).unique (Sorting.sorts_byBlocks (follows_before h))
  · rw [rank, if_neg h]

theorem perm_rank (results : List Result) : (rank results).Perm results := by
  rw [rank_eq_byBlocks]
  exact Sorting.byBlocks_perm _ _

theorem mem_rank : r ∈ rank results ↔ r ∈ results := (perm_rank results).mem_iff

end Verdict

end Stopwatch
