import Stopwatch.Presentation.Table
import Stopwatch.Proofs.Session.Judgement

/-!
# Quiet presentation

A quiet presentation gives each result a line with its values and leaves out that nothing was
completed. It does not leave out the comparison: `Presentation.tableText` never asks whether it
should be quiet. So whatever the results, the lines stand between the comparison of more than one
result and what is said of a disagreement or a failure (`Judged.text_eq`). If all succeeded and
agree there is no more to say, and then the lines are all that is written if and only if there is
nothing to compare (`quiet_text_iff`).
-/

namespace Stopwatch

namespace Presentation

variable {p : Presentation}

/-- The lines of results, one after the other. -/
def quietLines (p : Presentation) (results : List Result) : Text :=
  Text.concat (results.map fun r => p.quietLine r ++ "\n")

theorem announce_result (hquiet : p.quiet = true) (theme : Theme) (r : Result) :
    p.announce theme (.result r) = p.quietLine r ++ "\n" := by
  rw [announce, resultText, if_pos hquiet]

theorem announce_nothingCompleted (hquiet : p.quiet = true) (theme : Theme) :
    p.announce theme .nothingCompleted = ∅ := by
  rw [announce, if_pos hquiet]

/-- A comparison has a title, so it cannot be overlooked before any text. -/
theorem tableText_append_ne (p : Presentation) (theme : Theme) (results : List Result) (t : Text) :
    p.tableText theme results ++ t ≠ t := by
  intro h
  have hlength := congrArg (fun u : Text => u.bytes.length) h
  have htitle : 0 < (Text.ofString "\n--- Comparison Summary ---\n").bytes.length := by decide
  simp only [tableText, Text.bytes_append, List.length_append] at hlength
  omega

end Presentation

namespace Verdict

variable {results : List Result} {p : Presentation} {v : Verdict}

/-! ## What is written -/

/-- What more than one result is announced with. -/
def comparison (p : Presentation) (theme : Theme) (results : List Result) : Text :=
  if 1 < results.length then p.tableText theme results else ∅

/-- What is said after the results: which of them disagree, or else what failed first. -/
def closing (p : Presentation) (theme : Theme) (ranking : List Result) : Text :=
  match Disagreement.find? ranking with
  | some d => p.announce theme (.disagreement d)
  | none => (Fault.handle theme 0 (firstFault ranking)).1

theorem concat_sideBySide (p : Presentation) (theme : Theme) (results : List Result) :
    Text.concat ((sideBySide results).map (p.announce theme)) = comparison p theme results := by
  unfold sideBySide comparison
  split
  · exact Text.concat_singleton _
  · rfl

theorem concat_failure (p : Presentation) (theme : Theme) (f : Option Fault) :
    Text.concat ((f.map fun f => Announcement.failure (some f)).toList.map (p.announce theme)) =
      (Fault.handle theme 0 f).1 := by
  cases f with
  | none => rfl
  | some f => exact Text.concat_singleton _

theorem concat_result (hquiet : p.quiet = true) (theme : Theme) (results : List Result) :
    Text.concat ((results.map .result).map (p.announce theme)) = p.quietLines results := by
  simp only [List.map_map, Function.comp_def, Presentation.announce_result hquiet,
    Presentation.quietLines]

/-- **Quiet or not, results are compared.** The lines stand between the comparison and the closing.
-/
theorem Judged.text_eq (h : Judged results v) (hquiet : p.quiet = true) (theme : Theme) :
    v.text p theme =
      comparison p theme (rank results) ++ p.quietLines v.shown ++
      closing p theme (rank results) := by
  have hshown := h.shown_eq
  have hnil : p.quietLines [] = ∅ := rfl
  cases h with
  | nothingCompleted hnone =>
    have hfound := find?_rank_eq_none hnone
    have hclosing : ∀ f, Text.concat ([.nothingCompleted, .failure f].map (p.announce theme)) =
        (Fault.handle theme 0 f).1 := by
      intro f
      rw [List.map_cons, List.map_singleton, Presentation.announce_nothingCompleted hquiet]
      exact Text.concat_singleton _
    rw [hshown, if_pos hfound, filter_rank_eq_nil hnone, hnil,
      Text.append_empty, closing, hfound, text, List.map_append, Text.concat_append,
      concat_sideBySide, hclosing]
  | disagreement _ hfound =>
    rw [hshown, if_neg (by simp [hfound]), hnil, Text.append_empty, closing,
      hfound, text, List.map_append, Text.concat_append, concat_sideBySide,
      List.map_singleton, Text.concat_singleton]
  | presented _ hfound =>
    rw [hshown, if_pos hfound, closing, hfound, text, List.map_append,
      List.map_append, Text.concat_append, Text.concat_append, concat_sideBySide,
      concat_result hquiet, concat_failure]

/-! ## Nothing but lines -/

/-- Results that all succeeded and agree need no closing. -/
theorem closing_eq_empty (theme : Theme) (hsucceeded : ∀ r ∈ results, r.fault = none)
    (hagree : ¬ ∃ a ∈ results, ∃ b ∈ results, Disagreement.Between a b) :
    closing p theme (rank results) = ∅ := by
  have hfault : firstFault (rank results) = none :=
    List.findSome?_eq_none_iff.mpr fun r hr => hsucceeded r (mem_rank.mp hr)
  rw [closing, find?_rank_eq_none_iff.mpr hagree, hfault]
  rfl

theorem comparison_append_eq_iff {lines : Text} (theme : Theme) :
    comparison p theme results ++ lines = lines ↔ results.length ≤ 1 := by
  unfold comparison
  split
  · next hlt => exact iff_of_false (p.tableText_append_ne theme results lines) (Nat.not_le.mpr hlt)
  · next hle => exact iff_of_true (Text.empty_append lines) (Nat.not_lt.mp hle)

/-- What is written for results that all succeeded and agree: each of them is presented. -/
theorem text_of_succeeded (hquiet : p.quiet = true) (theme : Theme)
    (hsucceeded : ∀ r ∈ results, r.fault = none)
    (hagree : ¬ ∃ a ∈ results, ∃ b ∈ results, Disagreement.Between a b) :
    (ofResults results).shown = rank results ∧
      (ofResults results).text p theme = comparison p theme (rank results) ++
        p.quietLines (rank results) := by
  have hjudged := judged_ofResults results
  have hshown : (ofResults results).shown = rank results := by
    rw [hjudged.shown_eq, if_pos (find?_rank_eq_none_iff.mpr hagree)]
    refine List.filter_eq_self.mpr fun r hr => ?_
    simp [Result.succeeded, hsucceeded r (mem_rank.mp hr)]
  refine ⟨hshown, ?_⟩
  rw [hjudged.text_eq hquiet, hshown, closing_eq_empty theme hsucceeded hagree, Text.append_empty]

/-- **A quiet presentation of results that all succeeded and agree has one line for each**, in the
order of the ranking, and the comparison before them if there is more than one. So there is nothing
but lines if and only if there is at most one. -/
theorem quiet_text_iff (p : Presentation) (theme : Theme) (results : List Result)
    (hquiet : p.quiet = true) (hsucceeded : ∀ r ∈ results, r.fault = none)
    (hagree : ¬ ∃ a ∈ results, ∃ b ∈ results, Disagreement.Between a b) :
    let v := ofResults results
    v.shown = v.ranking ∧ v.shown.Perm results ∧
      v.text p theme = (if 1 < results.length then p.tableText theme v.shown else ∅) ++
        p.quietLines v.shown ∧
      (v.text p theme = p.quietLines v.shown ↔ results.length ≤ 1) := by
  intro v
  obtain ⟨hshown, htext⟩ := text_of_succeeded hquiet theme hsucceeded hagree
  have hranking : v.ranking = rank results := (judged_ofResults results).ranking_eq
  have hlength := (perm_rank results).length_eq
  refine ⟨hshown.trans hranking.symm, hshown ▸ perm_rank results, ?_, ?_⟩
  · rw [htext, hshown, comparison, hlength]
  · rw [htext, hshown, comparison_append_eq_iff, hlength]

/-- A single result is one line. -/
theorem quiet_text_of_single :
    let p : Presentation := { quiet := true }
    (ofResults [timed .sieve 1.0 none]).text p .plain =
      p.quietLine (timed .sieve 1.0 none) ++ "\n" := by
  intro p
  have hagree : ¬ ∃ a ∈ [timed .sieve 1.0 none], ∃ b ∈ [timed .sieve 1.0 none],
      Disagreement.Between a b :=
    agree_of_primes (n := 0) (by simp [timed])
  obtain ⟨-, hperm, -, hlines⟩ :=
    quiet_text_iff p .plain [timed .sieve 1.0 none] rfl (by simp [timed]) hagree
  rw [hlines.mpr (by simp), List.perm_singleton.mp hperm]
  exact Text.concat_singleton _

/-- Two results are compared before their lines. -/
theorem quiet_text_of_pair :
    ¬ ∀ (p : Presentation) (theme : Theme) (results : List Result), p.quiet = true → results ≠ [] →
      (∀ r ∈ results, r.fault = none) → (¬ ∃ a ∈ results, ∃ b ∈ results, Disagreement.Between a b) →
        (ofResults results).text p theme = p.quietLines (ofResults results).shown := by
  intro h
  have hsucceeded : ∀ r ∈ [timed .sieve 1.0 none, timed .primeCount 2.0 none],
    r.fault = none := by simp [timed]
  have hagree : ¬ ∃ a ∈ [timed .sieve 1.0 none, timed .primeCount 2.0 none],
      ∃ b ∈ [timed .sieve 1.0 none, timed .primeCount 2.0 none], Disagreement.Between a b :=
    agree_of_primes (n := 0) (by simp [timed])
  have hlines := h { quiet := true } .plain _ rfl (by simp) hsucceeded hagree
  obtain ⟨hshown, htext⟩ := text_of_succeeded (p := { quiet := true }) rfl .plain hsucceeded hagree
  rw [htext, hshown, comparison_append_eq_iff, (perm_rank _).length_eq] at hlines
  exact absurd hlines (by decide)

end Verdict

end Stopwatch
