import Stopwatch.Journal
import Stopwatch.Proofs.Settings.Acceptance
import Stopwatch.Proofs.Text.Runes

/-!
# What accepted words stand for

Some settings are words that are looked up again when the program uses them, and a word that is not
found there is replaced by a default in silence. `lookups_of_load` says that the words of accepted
settings are found: the unit, the memory mode, the selected workloads, and the journal's level
except for one word. The check of the level folds case but does not trim, while its reader does
both; this makes no difference, because a word that passes the check has no white space. But the
check admits "warning", which is the name of no level (`info_of_warning`).
-/

namespace Stopwatch

namespace Journal.Level

/-- The setting names a level, so that `parse` need not fall back to "info". -/
def IsKnown (setting : Text) : Prop := ∃ l, ofWord? setting.trim.lower = some l ∧ l ≠ unset

theorem parse_eq_of_ofWord? {setting : Text} {l : Level}
    (h : ofWord? setting.trim.lower = some l) (hl : l ≠ unset) :
    parse setting = l := by
  rw [parse, h]
  exact if_neg fun heq => hl (beq_iff_eq.mp heq)

theorem parse_eq_info_of_not_isKnown {setting : Text} (h : ¬ IsKnown setting) :
    parse setting = info := by
  unfold parse
  cases hword : ofWord? setting.trim.lower with
  | none => rfl
  | some l =>
    have hl : l = unset := by_contra fun hne => h ⟨l, hword, hne⟩
    exact if_pos (beq_iff_eq.mpr hl)

end Journal.Level

namespace Settings

open Journal

variable {program : Text} {args : List Text} {env : Environment} {s : Settings}

/-- The text of a level that passes the check has no white space around it. -/
theorem trim_eq_self_of_mem_levelWords {t : Text} (h : t.lower ∈ levelWords) : t.trim = t := by
  have hletters : ∀ word ∈ levelWords, ∀ b ∈ word.bytes,
    Text.isSmallLetter b = true := by decide +kernel
  exact Text.trim_eq_self_of_lower (hletters t.lower h)

/-- The words that pass the check name the level of the same name, with one exception. -/
theorem ofWord?_of_mem_levelWords {word : Text} (h : word ∈ levelWords) :
    word = "warning" ∧ Level.ofWord? word = none ∨
      word ≠ "warning" ∧ ∃ l, Level.ofWord? word = some l ∧ l ≠ Level.unset ∧ l.name = word := by
  simp only [levelWords, List.mem_cons, List.not_mem_nil, or_false] at h
  rcases h with rfl | rfl | rfl | rfl | rfl
  · exact .inr ⟨by decide, Level.debug, rfl, by decide, rfl⟩
  · exact .inr ⟨by decide, Level.info, rfl, by decide, rfl⟩
  · exact .inr ⟨by decide, Level.warn, rfl, by decide, rfl⟩
  · exact .inl ⟨rfl, rfl⟩
  · exact .inr ⟨by decide, Level.error, rfl, by decide, rfl⟩

/-- An accepted level is known unless it is spelled "warning", which counts as "info". -/
theorem Accepted.level {workloads : List Text} (h : s.Accepted workloads) :
    (Level.IsKnown s.logLevel ↔ s.logLevel.lower ≠ "warning") ∧
      (Level.parse s.logLevel).name = if s.logLevel.lower = "warning" then Level.info.name
        else s.logLevel.lower := by
  have htrim := trim_eq_self_of_mem_levelWords h.logLevel
  rcases ofWord?_of_mem_levelWords h.logLevel with ⟨hword, hnone⟩ | ⟨hword, l, hsome, hl, hname⟩
  · have hunknown : ¬ Level.IsKnown s.logLevel := by
      rintro ⟨l, hl, -⟩
      rw [htrim, hnone] at hl
      cases hl
    rw [if_pos hword, Level.parse_eq_info_of_not_isKnown hunknown]
    exact ⟨iff_of_false hunknown (not_not.mpr hword), rfl⟩
  · rw [← htrim] at hsome
    rw [if_neg hword, Level.parse_eq_of_ofWord? hsome hl]
    exact ⟨iff_of_true ⟨l, hsome, hl⟩ hword, hname⟩

/-- **The words of accepted settings are found where they are used.** The unit, the memory mode and
the selected workloads are, whatever the workloads are then built with; and the level is, unless it
is spelled "warning", which counts as "info". -/
theorem lookups_of_load {r : Registry} (hload : load program args env r.list = .ok s)
    (hcompletion : s.completion = ∅) (options : WorkloadOptions) :
    (∃ unit, TimeUnit.parse? s.unit = some unit) ∧
      (∃ mode, GcMode.parse s.gc = .ok mode) ∧
      (∃ ws, Registry.toRun { r with options } s.workload = .ok ws) ∧
      (Level.IsKnown s.logLevel ↔ s.logLevel.lower ≠ "warning") ∧
      (Level.parse s.logLevel).name = if s.logLevel.lower = "warning" then Level.info.name
        else s.logLevel.lower := by
  have haccepted := accepted_of_load hload hcompletion
  exact ⟨haccepted.unit, haccepted.gc, Registry.exists_toRun haccepted.workload, haccepted.level⟩

/-- Words may be surrounded by white space and written in capitals, where the check says so. -/
theorem lookups_of_capitals :
    let args : List Text :=
      ["-w", "all", "--unit", " SEC ", "--gc", "\tCollect", "--log-level", "Warn"]
    ∃ s, load "microbench" args ⟨[]⟩ (Registry.builtin {}).list = .ok s ∧ s.completion = ∅ ∧
      (∃ unit, TimeUnit.parse? s.unit = some unit) ∧ (∃ mode, GcMode.parse s.gc = .ok mode) ∧
      (∃ ws, (Registry.builtin { start := 7 }).toRun s.workload = .ok ws) ∧
      Level.IsKnown s.logLevel ∧ (Level.parse s.logLevel).name = "warn" := by
  intro args
  let s : Settings := { workload := "all", unit := " SEC ", gc := "\tCollect", logLevel := "Warn" }
  have hload : load "microbench" args ⟨[]⟩ (Registry.builtin {}).list = .ok s := rfl
  obtain ⟨hunit, hgc, hws, hknown, hname⟩ := lookups_of_load hload rfl { start := 7 }
  exact ⟨s, hload, rfl, hunit, hgc, hws, hknown.mpr (by decide), hname⟩

/-- A level that passes the check and is not known. -/
theorem info_of_warning :
    ∃ s, load "microbench" ["--log-level", "warning"] ⟨[]⟩ (Registry.builtin {}).list = .ok s ∧
        s.completion = ∅ ∧
      ¬ Level.IsKnown s.logLevel ∧ Level.parse s.logLevel = Level.info := by
  refine ⟨{ logLevel := "warning" }, rfl, rfl, ?_, rfl⟩
  have hnone : Level.ofWord? (Text.ofString "warning").trim.lower = none := rfl
  rintro ⟨l, hl, -⟩
  exact absurd (hnone.symm.trans hl) (by simp)

end Settings

end Stopwatch
