import Mathlib.Data.List.Forall2
import Stopwatch.Presentation.Table
import Stopwatch.Proofs.Text.Figures
import Stopwatch.Proofs.Text.Lines

/-!
# The columns of the table

A cell is filled up with spaces unless it takes more than `Cell.mostSpaces` of them. A line whose
cells are all filled up has them in the columns that belong to the widths (`laid_lineOf`), and a
line with another cell is not laid out in any columns, since something else than a space comes after
this cell (`filled_of_laid`). The widths are the least that hold all rows (`columnWidths_le_iff`),
so the table is in columns if and only if no two cells of one column differ too much
(`aligned_iff`).
-/

namespace Stopwatch.Presentation

/-! ## Cells in columns -/

/-- A space. -/
def space : Rune := .char ' '

/-- From a column on, a line consists of cells that start at given columns: only spaces stand
between a cell and the next column, three of them at least, and the last cell ends the line. -/
inductive Laid : ℕ → List Rune → List (List Rune) → List ℕ → Prop where
  | last (start : ℕ) (cell : List Rune) : Laid start cell [cell] [start]
  | next {start gap : ℕ} {line : List Rune} {cells : List (List Rune)}
      {starts : List ℕ} (cell : List Rune) (hgap : 3 ≤ gap)
      (hrest : Laid (start + cell.length + gap) line cells starts) :
      Laid start (cell ++ List.replicate gap space ++ line) (cell :: cells) (start :: starts)

/-- There is a first character, and it is not a space. -/
def Marked (line : List Rune) : Prop := ∃ r ∈ line.head?, r ≠ space

variable {start : ℕ} {line cell : List Rune} {cells : List (List Rune)} {starts : List ℕ}

/-- A cell that is not the last one is followed by spaces, and these by the rest of the line. -/
theorem Laid.cases_cons (h : Laid start line (cell :: cells) starts) :
    line = cell ∧ cells = [] ∨ ∃ gap rest later, 3 ≤ gap ∧
        line = cell ++ List.replicate gap space ++ rest ∧
      Laid (start + cell.length + gap) rest cells later := by
  cases h with
  | last => exact .inl ⟨rfl, rfl⟩
  | next _ hgap hrest => exact .inr ⟨_, _, _, hgap, rfl, hrest⟩

theorem Laid.length_starts (h : Laid start line cells starts) : starts.length = cells.length := by
  induction h with
  | last => rfl
  | next cell hgap hrest ih => rw [List.length_cons, List.length_cons, ih]

theorem Marked.append (h : Marked cell) (rest : List Rune) : Marked (cell ++ rest) := by
  obtain ⟨r, hr, hne⟩ := h
  exact ⟨r, by rw [List.head?_append, Option.mem_def.mp hr]; rfl, hne⟩

/-- A line begins with its first cell. -/
theorem Laid.marked (h : Laid start line cells starts) (hcells : ∀ cell ∈ cells, Marked cell) :
    Marked line := by
  cases h with
  | last => exact hcells line List.mem_cons_self
  | next cell hgap hrest =>
    rw [List.append_assoc]
    exact (hcells cell List.mem_cons_self).append _

theorem Marked.ne_replicate_append (h : Marked line) {n : ℕ} (hn : 0 < n) (rest : List Rune) :
    line ≠ List.replicate n space ++ rest := by
  obtain ⟨k, rfl⟩ := Nat.exists_eq_succ_of_ne_zero hn.ne'
  rintro rfl
  obtain ⟨r, hr, hne⟩ := h
  exact hne (Option.some.inj hr).symm

/-- Spaces are counted by what comes after them. -/
theorem replicate_append_inj {m n : ℕ} {xs ys : List Rune} (hx : Marked xs) (hy : Marked ys)
    (h : List.replicate m space ++ xs = List.replicate n space ++ ys) : m = n ∧ xs = ys := by
  induction m generalizing n with
  | zero =>
    cases n with
    | zero => exact ⟨rfl, h⟩
    | succ n => exact absurd h (hx.ne_replicate_append n.succ_pos ys)
  | succ m ih =>
    cases n with
    | zero => exact absurd h.symm (hy.ne_replicate_append m.succ_pos xs)
    | succ n =>
      obtain ⟨rfl, rfl⟩ := ih (n := n) (List.cons.inj h).2
      exact ⟨rfl, rfl⟩

/-! ## Lines of cells -/

/-- What stands between a cell and the next column. -/
def gapText (n : ℕ) : Text := Cell.filler n ++ "   "

theorem runes_gapText_of_le {n : ℕ} (h : n ≤ Cell.mostSpaces) :
    (gapText n).runes = List.replicate (n + 3) space := by
  have hspaces : gapText n = Text.spaces (n + 3) := by
    rw [gapText, Cell.filler, if_neg (not_lt.mpr h)]
    show Text.mk (List.replicate n 0x20 ++ List.replicate 3 0x20) = Text.mk _
    rw [List.replicate_append_replicate]
  rw [hspaces, Text.runes_spaces]
  rfl

theorem marked_gapText_of_lt {n : ℕ} (h : Cell.mostSpaces < n) : Marked (gapText n).runes := by
  rw [gapText, Cell.filler, if_pos h]
  exact ⟨.char '%', by decide +kernel, by decide⟩

theorem ascii_gapText (n : ℕ) : ∀ b ∈ (gapText n).bytes, b.toNat < 0x80 := by
  intro b hb
  rw [gapText, Text.bytes_append] at hb
  rcases List.mem_append.mp hb with hb | hb
  · unfold Cell.filler at hb
    split_ifs at hb
    · have hmark : ∀ c ∈ ("%!(BADWIDTH)" : Text).bytes, c.toNat < 0x80 := by decide +kernel
      exact hmark b hb
    · rw [(List.mem_replicate.mp hb).2]
      decide
  · have hspaces : ∀ c ∈ ("   " : Text).bytes, c.toNat < 0x80 := by decide +kernel
    exact hspaces b hb

/-- A cell is read as such in a line, whatever its bytes are. -/
theorem runes_cell_append (t : Text) (n : ℕ) (rest : Text) :
    (t ++ gapText n ++ rest).runes = t.runes ++ (gapText n).runes ++ rest.runes := by
  have hascii := ascii_gapText n
  have hhead : ∀ b ∈ (gapText n ++ rest).bytes.head?, Text.isTail b = false := by
    intro b hb
    have hne : (gapText n).bytes ≠ [] := by
      simp [gapText, show ("   " : Text).bytes ≠ [] from by decide +kernel]
    rw [Text.bytes_append, List.head?_append_of_ne_nil _ hne] at hb
    have hlt := hascii b (List.mem_of_mem_head? hb)
    rw [Bool.eq_false_iff, ne_eq, Text.isTail_iff]
    omega
  rw [Text.append_assoc, Text.runes_append t hhead, Text.runes_append_of_ascii hascii,
    Text.runes_of_ascii hascii, List.append_assoc]

/-- A line of cells that are filled up to widths, and of a last one. -/
def lineOf (widths : List ℕ) (cells : List Cell) (last : Cell) : Text :=
  Text.concat (List.zipWith (Cell.padded .plain) widths cells) ++ last.painted .plain

/-- The cells that a line is made of. -/
def cellsOf (cells : List Cell) (last : Cell) : List (List Rune) :=
  (cells ++ [last]).map (·.text.runes)

/-- The columns that belong to widths. -/
def columns (start : ℕ) : List ℕ → List ℕ
  | [] => [start]
  | w :: widths => start :: columns (start + w + 3) widths

/-- No color is switched on for the cell. -/
def Bare (c : Cell) : Prop := ∀ color ∈ c.color, color = ∅

/-- The cell takes no more spaces to its width than there can be. -/
def Filled (c : Cell) (w : ℕ) : Prop := w ≤ c.width + Cell.mostSpaces

variable {widths : List ℕ} {row : List Cell} {last c : Cell} {w : ℕ}

theorem Bare.painted (h : Bare c) : c.painted .plain = c.text := by
  cases hcolor : c.color with
  | none => rw [Cell.painted, hcolor]
  | some color =>
    obtain rfl := h color hcolor
    rw [Cell.painted, hcolor]
    exact Text.append_empty c.text

theorem lineOf_cons (h : Bare c) (w : ℕ) (widths : List ℕ) (row : List Cell) (last : Cell) :
    lineOf (w :: widths) (c :: row) last = c.text ++ gapText (w - c.width) ++
      lineOf widths row last := by
  rw [lineOf, lineOf, List.zipWith_cons_cons, Cell.padded, h.painted]
  show Text.mk _ = Text.mk _
  simp [gapText]

/-- A line without colors, in which each cell but the first begins with something else than a space.
-/
structure Plain (row : List Cell) (last : Cell) : Prop where
  bare : ∀ c ∈ row, Bare c
  bare_last : Bare last
  marked : ∀ cell ∈ (cellsOf row last).tail, Marked cell

theorem Plain.tail (h : Plain (c :: row) last) : Plain row last where
  bare := (List.forall_mem_cons.mp h.bare).2
  bare_last := h.bare_last
  marked cell hcell := h.marked cell (List.mem_of_mem_tail hcell)

/-- **Cells that are filled up stand in the columns of the widths.** -/
theorem laid_lineOf (h : Plain row last) (hle : List.Forall₂ (fun c w => c.width ≤ w) row widths)
    (hfilled : List.Forall₂ Filled row widths) (start : ℕ) :
    Laid start (lineOf widths row last).runes (cellsOf row last) (columns start widths) := by
  induction hle generalizing start with
  | nil =>
    have hline : lineOf [] [] last = last.text := h.bare_last.painted
    rw [hline]
    exact .last start _
  | @cons c w row widths hw _ ih =>
    obtain ⟨hmost, hfilled⟩ := List.forall₂_cons.mp hfilled
    have hgap : w - c.width ≤ Cell.mostSpaces := Nat.sub_le_iff_le_add'.mpr hmost
    rw [lineOf_cons (h.bare c List.mem_cons_self), runes_cell_append, runes_gapText_of_le hgap]
    refine .next _ (by omega) ?_
    have hstart : start + c.text.runes.length + (w - c.width + 3) = start + w + 3 := by
      have hwidth : c.text.runes.length = c.width := rfl
      omega
    rw [hstart]
    exact ih h.tail hfilled (start + w + 3)

/-- What comes after the first cell begins with something else than a space. -/
theorem Plain.marked_lineOf (h : Plain (c :: row) last) (hlength : row.length = widths.length) :
    Marked (lineOf widths row last).runes := by
  cases row with
  | nil =>
    have hline : lineOf widths [] last = last.text := by
      rw [lineOf, List.zipWith_nil_right]
      exact h.bare_last.painted
    rw [hline]
    exact h.marked _ List.mem_cons_self
  | cons d row =>
    obtain ⟨w, widths, rfl⟩ :=
      List.exists_cons_of_length_eq_add_one (n := row.length) (by simpa using hlength.symm)
    rw [lineOf_cons (h.tail.bare d List.mem_cons_self), runes_cell_append, List.append_assoc]
    exact (h.marked _ List.mem_cons_self).append _

/-- **A line that is laid out in columns at all has all its cells filled up**, since otherwise
something else than a space comes after a cell. -/
theorem filled_of_laid (h : Plain row last) (hlength : row.length = widths.length)
    (hlaid : Laid start (lineOf widths row last).runes (cellsOf row last) starts) :
    List.Forall₂ Filled row widths := by
  induction row generalizing widths start starts with
  | nil =>
    obtain rfl := List.length_eq_zero_iff.mp hlength.symm
    exact .nil
  | cons c row ih =>
    obtain ⟨w, widths, rfl⟩ :=
      List.exists_cons_of_length_eq_add_one (n := row.length) (by simpa using hlength.symm)
    have hlength : row.length = widths.length := by simpa using hlength
    rw [lineOf_cons (h.bare c List.mem_cons_self), runes_cell_append] at hlaid
    rcases hlaid.cases_cons with ⟨-, hnil⟩ | ⟨gap, rest, later, hgap, hline, hrest⟩
    · exact absurd hnil (by simp)
    · rw [List.append_assoc, List.append_assoc, List.append_cancel_left_eq] at hline
      have hmost : w - c.width ≤ Cell.mostSpaces := by
        by_contra hmost
        have hstart :=
          (marked_gapText_of_lt (not_le.mp hmost)).append (lineOf widths row last).runes
        exact hstart.ne_replicate_append (by omega) rest hline
      rw [runes_gapText_of_le hmost] at hline
      obtain ⟨-, rfl⟩ :=
        replicate_append_inj (h.marked_lineOf hlength) (hrest.marked h.marked) hline
      exact .cons (Nat.sub_le_iff_le_add'.mp hmost) (ih h.tail hlength hrest)

/-! ## Widths -/

theorem forall₂_zipWith_max_iff {xs ys zs : List ℕ} (hx : xs.length = zs.length)
    (hy : ys.length = zs.length) :
    List.Forall₂ (· ≤ ·) (List.zipWith max xs ys) zs ↔ List.Forall₂ (· ≤ ·) xs zs ∧
      List.Forall₂ (· ≤ ·) ys zs := by
  induction zs generalizing xs ys with
  | nil =>
    obtain rfl := List.length_eq_zero_iff.mp hx
    obtain rfl := List.length_eq_zero_iff.mp hy
    simp
  | cons z zs ih =>
    obtain ⟨x, xs, rfl⟩ := List.exists_cons_of_length_eq_add_one hx
    obtain ⟨y, ys, rfl⟩ := List.exists_cons_of_length_eq_add_one hy
    rw [List.zipWith_cons_cons, List.forall₂_cons, List.forall₂_cons, List.forall₂_cons, max_le_iff,
      ih (by simpa using hx) (by simpa using hy)]
    tauto

theorem forall₂_foldl_iff {rows : List (List Cell)} {widths bounds : List ℕ}
    (hwidths : widths.length = bounds.length) (hrows : ∀ row ∈ rows, row.length = bounds.length) :
    List.Forall₂ (· ≤ ·)
        (rows.foldl (fun widths row => List.zipWith max widths (row.map Cell.width)) widths)
        bounds ↔
      List.Forall₂ (· ≤ ·) widths bounds ∧ ∀ row ∈ rows,
        List.Forall₂ (fun c b => c.width ≤ b) row bounds := by
  induction rows generalizing widths with
  | nil => simp
  | cons row rows ih =>
    obtain ⟨hrow, hrows⟩ := List.forall_mem_cons.mp hrows
    have hmap : (row.map Cell.width).length = bounds.length := by rw [List.length_map, hrow]
    rw [List.foldl_cons, ih (by rw [List.length_zipWith, hwidths, hmap, min_self]) hrows,
      forall₂_zipWith_max_iff hwidths hmap, List.forall₂_map_left_iff,
      List.forall_mem_cons, and_assoc]

theorem length_foldl_zipWith {rows : List (List Cell)} {widths : List ℕ} {n : ℕ}
    (hwidths : widths.length = n) (hrows : ∀ row ∈ rows, row.length = n) :
    (rows.foldl (fun widths row => List.zipWith max widths (row.map Cell.width)) widths).length =
      n := by
  induction rows generalizing widths with
  | nil => exact hwidths
  | cons row rows ih =>
    obtain ⟨hrow, hrows⟩ := List.forall_mem_cons.mp hrows
    exact ih (by rw [List.length_zipWith, List.length_map, hwidths, hrow, min_self]) hrows

/-- **The widths of the columns are the least that hold all rows.** -/
theorem columnWidths_le_iff {rows : List (List Cell)} {bounds : List ℕ}
    (hbounds : bounds.length = 4) (hrows : ∀ row ∈ rows, row.length = 4) :
    List.Forall₂ (· ≤ ·) (columnWidths rows) bounds ↔
      ∀ row ∈ rows, List.Forall₂ (fun c b => c.width ≤ b) row bounds := by
  have hzero : List.Forall₂ (· ≤ ·) [0, 0, 0, 0] bounds := by
    match bounds, hbounds with
    | [a, b, c, d], _ => simp
  rw [columnWidths, forall₂_foldl_iff (by simpa using hbounds.symm)
    (by simpa [hbounds] using hrows)]
  exact and_iff_right hzero

/-! ## The table -/

variable {p : Presentation} {results : List Result} {r : Result}

/-- The rows of the table, with its heading. -/
def tableRows (p : Presentation) (results : List Result) : List (List Cell) :=
  p.headings .plain :: results.map (p.valueCells .plain)

/-- The heading of the last column. -/
def statusHeading : Cell := ⟨"Status", some Theme.plain.underline⟩

theorem forall_mem_tableRows {q : List Cell → Prop} :
    (∀ row ∈ tableRows p results, q row) ↔ q (p.headings .plain) ∧
      ∀ r ∈ results, q (p.valueCells .plain r) := by
  rw [tableRows, List.forall_mem_cons, List.forall_mem_map]

theorem length_of_mem_tableRows (p : Presentation) (results : List Result) :
    ∀ row ∈ tableRows p results, row.length = 4 :=
  forall_mem_tableRows.mpr ⟨rfl, fun _ _ => rfl⟩

/-- Every cell of a row fits into its column. -/
theorem le_columnWidths {row : List Cell} (h : row ∈ tableRows p results) :
    List.Forall₂ (fun c w => c.width ≤ w) row (columnWidths (tableRows p results)) := by
  have hrows := length_of_mem_tableRows p results
  have hlength : (columnWidths (tableRows p results)).length = 4 := length_foldl_zipWith rfl hrows
  exact (columnWidths_le_iff hlength hrows).mp (List.forall₂_refl _) row h

/-- The cells of a row are filled up if and only if no cell of another row is too much wider. -/
theorem filled_iff {row : List Cell} (h : row ∈ tableRows p results) :
    List.Forall₂ Filled row (columnWidths (tableRows p results)) ↔
      ∀ other ∈ tableRows p results,
        List.Forall₂ (fun d c => d.width ≤ c.width + Cell.mostSpaces) other row := by
  have hbounds : (row.map fun c => c.width + Cell.mostSpaces).length = 4 := by
    rw [List.length_map, length_of_mem_tableRows p results row h]
  have hwidths := columnWidths_le_iff hbounds (length_of_mem_tableRows p results)
  simp only [List.forall₂_map_right_iff] at hwidths
  rw [← hwidths]
  exact ⟨List.Forall₂.flip, List.Forall₂.flip⟩

/-- What does not begin with a space is read with another character first. -/
theorem marked_of_head {t : Text} {b : UInt8} (h : t.bytes.head? = some b) (hb : b ≠ 0x20) :
    Marked t.runes := by
  obtain ⟨_ | ⟨a, rest⟩⟩ := t
  · simp at h
  · obtain rfl : a = b := by simpa using h
    refine ⟨(Text.readRune a rest).1, rfl, fun hspace => hb ?_⟩
    have hencode := Text.encode_readRune a rest
    rw [hspace] at hencode
    exact (List.cons.inj hencode).1.symm

theorem plain_heading (p : Presentation) : Plain (p.headings .plain) statusHeading where
  bare := by simp [headings, Bare, Theme.plain]
  bare_last := by simp [statusHeading, Bare, Theme.plain]
  marked := by
    have hmean : Marked ("Mean " ++ p.unit.label).runes :=
      marked_of_head (b := 0x4d) rfl (by decide)
    have hdeviation : Marked ("Stdev" : Text).runes := marked_of_head (b := 0x53) rfl (by decide)
    have hvariation : Marked ("CV (%)" : Text).runes := marked_of_head (b := 0x43) rfl (by decide)
    have hstatus : Marked ("Status" : Text).runes := marked_of_head (b := 0x53) rfl (by decide)
    simpa [cellsOf, headings, statusHeading] using ⟨hmean, hdeviation, hvariation, hstatus⟩

/-- The text of a value, or of a dash in its place, is visible. -/
theorem visible_value (q : Prop) [Decidable q] (x : Float) (precision : ℤ) :
    (if q then fixedText x precision else ("-" : Text)).bytes ≠ [] ∧
      ∀ b ∈ (if q then fixedText x precision else ("-" : Text)).bytes, FloatText.Visible b := by
  split_ifs
  · exact ⟨FloatText.bytes_fixedText_ne_nil x precision, FloatText.visible_fixedText x precision⟩
  · decide +kernel

theorem marked_of_visible {t : Text} (h : t.bytes ≠ [] ∧ ∀ b ∈ t.bytes, FloatText.Visible b) :
    Marked t.runes := by
  obtain ⟨b, rest, hbytes⟩ := List.exists_cons_of_ne_nil h.1
  have hvisible := h.2 b (by simp [hbytes])
  refine marked_of_head (b := b) (by simp [hbytes]) ?_
  rintro rfl
  exact absurd hvisible (by decide)

theorem plain_result (p : Presentation) (r : Result) :
    Plain (p.valueCells .plain r) (statusCell .plain r) where
  bare := by simp [valueCells, Bare, Theme.plain]
  bare_last := by
    unfold statusCell
    split <;> simp [Bare, Theme.plain]
  marked := by
    have hstatus : Marked (statusCell .plain r).text.runes := by
      unfold statusCell
      split <;> exact marked_of_head (b := 0xe2) rfl (by decide)
    have hvalue := fun (q : Prop) [Decidable q] x precision =>
      marked_of_visible (visible_value q x precision)
    simpa only [cellsOf, valueCells, List.cons_append, List.nil_append, List.map_cons,
      List.map_nil, List.tail_cons, List.forall_mem_cons] using ⟨hvalue _ _ _, hvalue _ _ _,
      hvalue _ _ _, hstatus, by simp⟩

/-! ## Lines of the table -/

theorem unbroken_gapText (n : ℕ) : (gapText n).Unbroken := by
  refine Text.Unbroken.append ?_ (by decide +kernel)
  unfold Cell.filler
  split_ifs
  · decide +kernel
  · exact Text.unbroken_spaces n

theorem unbroken_lineOf (h : Plain row last) (hlast : last.text.Unbroken)
    (hcells : ∀ c ∈ row, c.text.Unbroken) :
    (lineOf widths row last).Unbroken := by
  have hend : (last.painted .plain).Unbroken := by rwa [h.bare_last.painted]
  induction row generalizing widths with
  | nil =>
    rw [lineOf, List.zipWith_nil_right]
    exact hend
  | cons c row ih =>
    obtain ⟨hcell, hcells⟩ := List.forall_mem_cons.mp hcells
    cases widths with
    | nil => exact hend
    | cons w widths =>
      rw [lineOf_cons (h.bare c List.mem_cons_self)]
      exact (hcell.append (unbroken_gapText _)).append (ih h.tail hcells)

theorem unbroken_of_visible {t : Text} (h : t.bytes ≠ [] ∧ ∀ b ∈ t.bytes, FloatText.Visible b) :
    t.Unbroken :=
  fun hbreak => absurd (h.2 _ hbreak) (by decide)

/-- The line with the headings. -/
def headingLine (p : Presentation) (results : List Result) : Text :=
  lineOf (columnWidths (tableRows p results)) (p.headings .plain) statusHeading

/-- The line of a result. -/
def resultLine (p : Presentation) (results : List Result) (r : Result) : Text :=
  lineOf (columnWidths (tableRows p results)) (p.valueCells .plain r) (statusCell .plain r)

theorem unbroken_headingLine (hlabel : p.unit.label.Unbroken) :
    (headingLine p results).Unbroken := by
  have hmean : ("Mean " ++ p.unit.label).Unbroken := Text.Unbroken.append (by decide +kernel) hlabel
  refine unbroken_lineOf (plain_heading p) (by decide +kernel) ?_
  simp only [headings, List.forall_mem_cons]
  exact ⟨by decide +kernel, hmean, by decide +kernel, by decide +kernel, by simp⟩

theorem unbroken_resultLine (hname : r.name.Unbroken)
    (hmessage : ∀ f ∈ r.fault, f.message.Unbroken) :
    (resultLine p results r).Unbroken := by
  have hvalue := fun (q : Prop) [Decidable q] x precision =>
    unbroken_of_visible (visible_value q x precision)
  refine unbroken_lineOf (plain_result p r) ?_ ?_
  · unfold statusCell
    split
    · next f hf =>
      exact (Text.Unbroken.append (by decide +kernel) (hmessage f hf)).append (by decide +kernel)
    · decide +kernel
  · simp only [valueCells, List.forall_mem_cons]
    exact ⟨hname, hvalue _ _ _, hvalue _ _ _, hvalue _ _ _, by simp⟩

/-- The line above the table. -/
def title : Text := "--- Comparison Summary ---"

/-- **The table has one line for each result, in order, after its heading.** -/
theorem lines_tableText (hlabel : p.unit.label.Unbroken) (hnames : ∀ r ∈ results, r.name.Unbroken)
    (hmessages : ∀ r ∈ results, ∀ f ∈ r.fault, f.message.Unbroken) :
    (p.tableText .plain results).lines = ∅ :: title :: headingLine p results ::
      results.map (resultLine p results) := by
  have htitle : ("\n--- Comparison Summary ---\n" : Text) = Text.newline ++
    (title ++ Text.newline) := by decide +kernel
  have htext : p.tableText .plain results =
      Text.newline ++ (title ++ Text.newline) ++ (headingLine p results ++ Text.newline) ++
        Text.concat (results.map fun r => resultLine p results r ++ Text.newline) := by
    rw [← htitle]
    rfl
  have hlines : p.tableText .plain results =
      Text.unlines (∅ :: title :: headingLine p results :: results.map (resultLine p results)) := by
    rw [htext, Text.unlines]
    show Text.mk _ = Text.mk _
    simp [Function.comp_def]
  rw [hlines, Text.lines_unlines]
  simp only [List.forall_mem_cons, List.forall_mem_map]
  exact ⟨by decide, by decide +kernel, unbroken_headingLine hlabel,
    fun r hr => unbroken_resultLine (hnames r hr) (hmessages r hr)⟩

/-- The cells of the heading. -/
def headingCells (p : Presentation) : List (List Rune) := cellsOf (p.headings .plain) statusHeading

/-- The cells of the line of a result: its name, three values and how it went. -/
def resultCells (p : Presentation) (r : Result) : List (List Rune) :=
  cellsOf (p.valueCells .plain r) (statusCell .plain r)

/-- The line of a result begins with its name and ends with how it went. -/
theorem resultLine_ends (hr : r ∈ results) :
    r.name.bytes <+: (resultLine p results r).bytes ∧
      (statusCell .plain r).text.bytes <:+ (resultLine p results r).bytes := by
  have hplain := plain_result p r
  have hname : Bare ⟨r.name, some Theme.plain.primary⟩ := hplain.bare _ List.mem_cons_self
  have hrow := le_columnWidths (p := p) (List.mem_cons_of_mem _ (List.mem_map_of_mem hr))
  constructor
  · unfold resultLine
    obtain ⟨w, widths, -, -, hwidths⟩ := List.forall₂_cons_left_iff.mp hrow
    rw [hwidths, valueCells, lineOf_cons hname, Text.append_assoc]
    exact List.prefix_append _ _
  · rw [← hplain.bare_last.painted]
    exact List.suffix_append _ _

/-- The lines of a table are laid out in the same columns if and only if all cells are filled up. -/
theorem laid_iff (p : Presentation) (results : List Result) :
    (∃ starts, Laid 0 (headingLine p results).runes (headingCells p) starts ∧
        ∀ r ∈ results, Laid 0 (resultLine p results r).runes (resultCells p r) starts) ↔
      ∀ row ∈ tableRows p results,
        List.Forall₂ Filled row (columnWidths (tableRows p results)) := by
  rw [forall_mem_tableRows]
  have hheading : p.headings .plain ∈ tableRows p results := List.mem_cons_self
  have hresult : ∀ r ∈ results, p.valueCells .plain r ∈ tableRows p results := fun r hr =>
    List.mem_cons_of_mem _ (List.mem_map_of_mem hr)
  constructor
  · rintro ⟨starts, hlaid, hlines⟩
    have hlength : ∀ row ∈ tableRows p results,
        row.length = (columnWidths (tableRows p results)).length :=
      fun row hrow => (le_columnWidths hrow).length_eq
    refine ⟨filled_of_laid (plain_heading p) (hlength _ hheading) hlaid, fun r hr => ?_⟩
    exact filled_of_laid (plain_result p r) (hlength _ (hresult r hr)) (hlines r hr)
  · rintro ⟨hfilled, hlines⟩
    refine ⟨_, laid_lineOf (plain_heading p) (le_columnWidths hheading) hfilled 0, fun r hr => ?_⟩
    exact laid_lineOf (plain_result p r) (le_columnWidths (hresult r hr)) (hlines r hr) 0

/-- **The table is in columns if and only if no two cells of one column differ too much.** Whatever
the results and the presentation, as long as names, messages and the label of the unit have no line
breaks, the table without colors has its title, its heading and one line for each result, in order,
from its name to how it went. All lines, the heading among them, are laid out in the same five
columns if and only if no cell is more than a million characters wider than another one of its
column. -/
theorem aligned_iff (p : Presentation) (results : List Result) (hlabel : p.unit.label.Unbroken)
    (hnames : ∀ r ∈ results, r.name.Unbroken)
    (hmessages : ∀ r ∈ results, ∀ f ∈ r.fault, f.message.Unbroken) :
    ∃ heading lines, (p.tableText .plain results).lines = ∅ :: title :: heading :: lines ∧
      List.Forall₂ (fun r line => r.name.bytes <+: line.bytes ∧
        (statusCell .plain r).text.bytes <:+ line.bytes)
        results lines ∧
      ((∃ starts : List ℕ, starts.length = 5 ∧ Laid 0 heading.runes (headingCells p) starts ∧
          List.Forall₂ (fun r line => Laid 0 line.runes (resultCells p r) starts) results lines) ↔
        ∀ row ∈ tableRows p results, ∀ other ∈ tableRows p results,
          List.Forall₂ (fun d c => d.width ≤ c.width + Cell.mostSpaces) other row) := by
  refine ⟨_, _, lines_tableText hlabel hnames hmessages, ?_, ?_⟩
  · rw [List.forall₂_map_right_iff, List.forall₂_same]
    exact fun r hr => resultLine_ends hr
  · have hfilled : (∀ row ∈ tableRows p results,
      List.Forall₂ Filled row (columnWidths (tableRows p results))) ↔
        ∀ row ∈ tableRows p results, ∀ other ∈ tableRows p results,
          List.Forall₂ (fun d c => d.width ≤ c.width + Cell.mostSpaces) other row :=
      forall₂_congr fun row hrow => filled_iff hrow
    rw [← hfilled, ← laid_iff]
    simp only [List.forall₂_map_right_iff, List.forall₂_same]
    refine exists_congr fun starts => and_iff_right_of_imp ?_
    rintro ⟨hlaid, -⟩
    exact hlaid.length_starts

/-- Two results in milliseconds, one of them with a fault, are in columns. -/
theorem aligned_of_two_results :
    let p : Presentation := { unit := .milliseconds }
    let results : List Result :=
      [{ report := { name := "fibonacci", summary := { n := 1, mean := 0.5 } } },
        { report := { name := "sieve" }, fault := some (.plain "out of memory") }]
    p.unit.label.Unbroken ∧ (∀ r ∈ results, r.name.Unbroken) ∧
      (∀ r ∈ results, ∀ f ∈ r.fault, f.message.Unbroken) ∧
      ∃ heading lines starts, (p.tableText .plain results).lines = ∅ :: title :: heading :: lines ∧
        Laid 0 heading.runes (headingCells p) starts ∧
        List.Forall₂ (fun r line => Laid 0 line.runes (resultCells p r) starts) results lines := by
  intro p results
  have hlabel : p.unit.label.Unbroken := by decide +kernel
  have hnames : ∀ r ∈ results, r.name.Unbroken := by decide +kernel
  have hmessages : ∀ r ∈ results, ∀ f ∈ r.fault, f.message.Unbroken := by decide +kernel
  obtain ⟨heading, lines, hlines, -, haligned⟩ := aligned_iff p results hlabel hnames hmessages
  obtain ⟨starts, -, hlaid⟩ := haligned.mpr (by decide +kernel)
  exact ⟨hlabel, hnames, hmessages, heading, lines, starts, hlines, hlaid⟩

/-- A thousand seconds, counted in milliseconds. -/
def thousandSeconds : Float := 1000.0 * (1.0 / TimeUnit.milliseconds.scale.seconds)

theorem runeCount_fixedText (x : Float) (precision : ℤ) :
    (fixedText x precision).runeCount = (fixedText x precision).bytes.length := by
  rw [Text.runeCount, Text.runes_of_ascii fun b hb =>
    (FloatText.visible_fixedText x precision b hb).2, List.length_map]

theorem runeCount_million_decimals : (fixedText thousandSeconds 1000000).runeCount = 1000008 := by
  have hview : Binary.view thousandSeconds = .finite false (1000000 * 2 ^ 33) (-33) := by
    decide +kernel
  have hlength : (FloatText.fixed FloatText.mostPlaces thousandSeconds).bytes.length =
    1082 := by decide +kernel
  rw [runeCount_fixedText, fixedText, if_neg (by decide),
    FloatText.length_fixed_of_le hview (by decide), hlength]
  rfl

/-- A thousand seconds in milliseconds with a million decimals leave the heading of the column more
than a million characters behind, so the next one does not stand in its column. -/
theorem misaligned_of_million_decimals :
    let p : Presentation := { unit := .milliseconds, precision := 1000000 }
    let r : Result := { report := { name := "prime-scan", summary := { n := 1, mean := 1000.0 } } }
    (p.tableText .plain [r]).lines = [∅, title, headingLine p [r], resultLine p [r] r] ∧
      ¬ ∃ starts, Laid 0 (headingLine p [r]).runes (headingCells p) starts ∧
        Laid 0 (resultLine p [r] r).runes (resultCells p r) starts := by
  intro p r
  refine ⟨lines_tableText (by decide +kernel) (by decide +kernel) (by decide +kernel), ?_⟩
  rintro ⟨starts, hheading, hresult⟩
  have hfilled := (laid_iff p [r]).mp ⟨starts, hheading, List.forall_mem_singleton.mpr hresult⟩
  have hwide :=
    (filled_iff List.mem_cons_self).mp (hfilled _ List.mem_cons_self) (p.valueCells .plain r)
      (List.mem_cons_of_mem _ List.mem_cons_self)
  -- The mean is told with 7 digits, a point and all its decimals, under a heading of 7 characters.
  obtain ⟨hmean, -⟩ := List.forall₂_cons.mp (List.forall₂_cons.mp hwide).2
  have hn : 0 < (summaryIn p.unit r).n := by decide
  have hvalue : (summaryIn p.unit r).mean = thousandSeconds := rfl
  have hprecision : p.precisionFor r = 1000000 := rfl
  have hwidth : ("Mean " ++ p.unit.label).runeCount = 7 := by decide +kernel
  have hmost : Cell.mostSpaces = 1000000 := rfl
  simp only [Cell.width, if_pos hn, hvalue, hprecision,
    runeCount_million_decimals, hwidth, hmost] at hmean
  omega

end Stopwatch.Presentation
