import Stopwatch.Presentation.Table
import Stopwatch.Proofs.Float.Seconds
import Stopwatch.Proofs.Text.Figures

/-!
# One value in all places

The comparison table counts in the unit that it is given, and the lines of a result in milliseconds
in place of a unit without a length. So the cells of a row are the values of the lines if and only
if the unit has a length (`table_shows_values_iff`). Without one the table divides by zero or by a
negative length, and not even the first character of a mean needs to be the same (`head?_one_ne`).
-/

namespace Stopwatch.Presentation

open Rounding FloatText

variable {p : Presentation} {theme : Theme} {r : Result} {unit : TimeUnit}

/-- The lines of a result show given values wherever they show a value at all. -/
structure Shows (p : Presentation) (r : Result) (mean deviation variation : Text) : Prop where
  averageLine_eq : 0 < r.report.summary.n → p.averageLine r =
    "📊 Average time over " ++ Text.ofInt r.report.summary.n ++ " runs: " ++ mean ++
    " " ++ p.unit.orDefault.label
  deviationLine_eq : r.report.summary.hasSpread = true → p.wantsSpread r = true →
    p.deviationLine r = "Standard deviation " ++ p.unit.orDefault.label ++ ": " ++ deviation
  variationLine_eq : r.report.summary.hasSpread = true → p.wantsVariation r = true →
    p.variationLine r = "CV (%): " ++ variation
  quietLine_eq : ∃ first : Text, (0 < r.report.summary.n → first = mean) ∧ p.quietLine r =
    Text.join " " ([r.name, first] ++
      (if p.wantsSpread r && r.report.summary.hasSpread then [deviation] else []) ++
      if p.wantsVariation r && r.report.summary.hasSpread then [variation] else [])

/-! ## A unit with a length -/

theorem orDefault_of_pos (h : 0 < unit.scale.toInt) : unit.orDefault = unit := if_neg (not_le.mpr h)

/-- In a unit with a length the lines show the cells of the row. -/
theorem shows_cells (h : 0 < p.unit.scale.toInt) (theme : Theme) (r : Result) :
    ∃ mean deviation variation,
      (p.valueCells theme r).map Cell.text = [r.name, mean, deviation, variation] ∧
        Shows p r mean deviation variation := by
  have hunit := orDefault_of_pos h
  refine ⟨_, _, _, rfl, ?_⟩
  constructor
  · intro hn
    have hn' : 0 < (summaryIn p.unit r).n := hn
    rw [averageLine, hunit, if_pos hn']
    rfl
  · intro hspread hwants
    have hspread' : (summaryIn p.unit r).hasSpread = true := hspread
    simp only [deviationLine, hunit, if_pos hwants, if_pos hspread']
  · intro hspread hwants
    have hspread' : (summaryIn p.unit r).hasSpread = true := hspread
    simp only [variationLine, hunit, if_pos hwants, if_pos hspread']
  · refine ⟨fixedText (summaryIn p.unit r).mean (p.precisionFor r), fun hn => ?_, ?_⟩
    · have hn' : 0 < (summaryIn p.unit r).n := hn
      rw [if_pos hn']
    · have hspread : (summaryIn p.unit r).hasSpread = r.report.summary.hasSpread := rfl
      simp only [quietLine, hunit, hspread, List.append_assoc]
      cases r.report.summary.hasSpread <;> simp

/-! ## A unit without a length -/

/-- Texts of one precision are told apart by the number alone. -/
theorem exists_fixed_eq {x y : Float} (precision : ℤ)
    (h : fixedText x precision = fixedText y precision) :
    ∃ places, fixed places x = fixed places y := by
  rw [fixedText_eq, fixedText_eq] at h
  exact ⟨_, congrArg Text.mk (List.append_cancel_left (congrArg Text.bytes h))⟩

/-- One over a negative length is between these powers of two, since a length has up to `2 ^ 34`
seconds. -/
theorem one_div_seconds_bounds {d : Duration} (h : d.toInt < 0) :
    -2 ^ 30 ≤ 1 / value d.seconds ∧ 1 / value d.seconds ≤ -2 ^ (-34 : ℤ) := by
  have hmoment := seconds_of_neg h
  have hmost := (abs_le.mp (isFinite_seconds d).2).1
  have hneg : value d.seconds < 0 := hmoment.trans_lt (neg_lt_zero.mpr (two_zpow_pos _))
  rw [le_div_iff_of_neg hneg, div_le_iff_of_neg hneg]
  norm_num at hmoment hmost ⊢
  constructor <;> linarith

/-- What is counted in a negative length changes its sign. -/
theorem value_one_mul_neg {d : Duration} (h : d.toInt < 0) :
    value (1.0 * (1.0 / d.seconds)) < 0 := by
  obtain ⟨hlow, hhigh⟩ := one_div_seconds_bounds h
  have hgrid : OnGrid (-2 ^ (-34 : ℤ)) := (onGrid_two_zpow_of_nonpos (by decide) (by decide)).neg
  have hne : value d.seconds ≠ 0 :=
    ((seconds_of_neg h).trans_lt (neg_lt_zero.mpr (two_zpow_pos _))).ne
  have hquot := rounds_div (x := 1.0) rfl (isFinite_seconds d).1 hne
  rw [value_one] at hquot
  obtain ⟨hfinite, -, hle⟩ := hquot.between (onGrid_two_pow (by decide)).neg hgrid hlow hhigh
  have hproduct := rounds_mul (x := 1.0) rfl hfinite
  rw [value_one, one_mul] at hproduct
  exact (hproduct.le_of_onGrid hgrid hle).trans_lt (neg_lt_zero.mpr (two_zpow_pos _))

/-- **Without a length, one is not written with the same first character as one in milliseconds.**
-/
theorem head?_one_ne (h : unit.scale.toInt ≤ 0) (places : ℕ) :
    (fixed places (1.0 * (1.0 / unit.scale.seconds))).bytes.head? ≠
      (fixed places (1.0 * (1.0 / unit.orDefault.scale.seconds))).bytes.head? := by
  have hdefault : unit.orDefault = .milliseconds := if_pos h
  have hview : Binary.view (1.0 * (1.0 / TimeUnit.milliseconds.scale.seconds)) =
      .finite false (1000 * 2 ^ 43) (-43) := by decide +kernel
  obtain ⟨b, hhead, hdigit⟩ := isDigit_head_fixed hview places
  rw [hdefault, hhead]
  rcases h.lt_or_eq with hneg | hzero
  · rw [head?_fixed_of_neg (value_one_mul_neg hneg)]
    rintro ⟨rfl⟩
    exact absurd hdigit (by decide)
  · have hscale : unit.scale = 0 := congrArg Duration.mk (Int64.toInt_inj.mp hzero)
    have hinfinite : Binary.view (1.0 * (1.0 / (0 : Duration).seconds)) =
      .infinite false := by decide +kernel
    have hplus : (fixed places (1.0 * (1.0 / (0 : Duration).seconds))).bytes.head? = some 0x2b := by
      rw [fixed, hinfinite]
      rfl
    rw [hscale, hplus]
    rintro ⟨rfl⟩
    exact absurd hdigit (by decide)

/-- A result with a mean of one second. -/
def meanOfOne : Result := { report := { name := ∅, summary := { n := 1, mean := 1.0 } } }

/-- Without a length, the lines of this result do not show the cell of the mean. -/
theorem not_shows_meanOfOne (h : p.unit.scale.toInt ≤ 0) (deviation variation : Text) :
    ¬ Shows p meanOfOne (fixedText (1.0 * (1.0 / p.unit.scale.seconds)) (p.precisionFor meanOfOne))
      deviation variation := by
  intro hshows
  have haverage := congrArg Text.bytes (hshows.averageLine_eq (by decide))
  obtain ⟨places, hfixed⟩ : ∃ places, fixed places (1.0 * (1.0 / p.unit.orDefault.scale.seconds)) =
      fixed places (1.0 * (1.0 / p.unit.scale.seconds)) := by
    refine exists_fixed_eq (p.precisionFor meanOfOne) (congrArg Text.mk ?_)
    simp only [averageLine, Text.bytes_append, List.append_cancel_right_eq] at haverage
    exact List.append_cancel_left haverage
  exact head?_one_ne h places (congrArg (fun t => t.bytes.head?) hfixed).symm

/-- **The table shows the values of the lines if and only if the unit has a length.** The rows of
the table are made of the cells of the results, in order, and the cells of each are its name and the
values that its lines show. -/
theorem table_shows_values_iff (p : Presentation) (theme : Theme) :
    (∀ results : List Result, ∃ widths : List ℕ,
      p.tableText theme results = "\n--- Comparison Summary ---\n" ++
          rowText theme widths (p.headings theme) ⟨"Status", some theme.underline⟩ ++
          Text.concat (results.map fun r => rowText theme widths
            (p.valueCells theme r) (statusCell theme r)) ∧
        ∀ r ∈ results, ∃ mean deviation variation,
          (p.valueCells theme r).map Cell.text = [r.name, mean, deviation, variation] ∧
            Shows p r mean deviation variation) ↔ 0 < p.unit.scale.toInt := by
  constructor
  · intro h
    by_contra hscale
    obtain ⟨widths, -, hrows⟩ := h [meanOfOne]
    obtain ⟨mean, deviation, variation, hcells, hshows⟩ := hrows meanOfOne List.mem_cons_self
    obtain ⟨rfl, -⟩ : fixedText (1.0 * (1.0 / p.unit.scale.seconds))
        (p.precisionFor meanOfOne) = mean ∧ _ :=
      List.cons.inj (List.cons.inj hcells).2
    exact not_shows_meanOfOne (not_lt.mp hscale) deviation variation hshows
  · intro h results
    exact ⟨_, rfl, fun r _ => shows_cells h theme r⟩

/-- A unit without a length is milliseconds in the line of a result, and nothing can be counted in
it in the table. -/
theorem table_infinite_of_no_unit :
    let r : Result := { report := { name := "sieve", summary := { n := 1, mean := 0.001 } } }
    (valueCells {} .plain r).map Cell.text = ["sieve", "+Inf", "-", "-"] ∧
      quietLine {} r = "sieve 1.00" := by
  decide +kernel

end Stopwatch.Presentation
