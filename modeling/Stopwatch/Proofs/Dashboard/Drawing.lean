import Stopwatch.Dashboard.Plot
import Stopwatch.Proofs.Float.NotANumber
import Stopwatch.Proofs.Text.Characters

/-!
# The shape of a drawing

A percentage that is a number reaches a level of its scale, whatever the number (`level_bounds`),
and what is no number does not (`level_of_isNaN`). So a series has a drawing if and only if all that
is drawn are numbers, and then no table is read outside of its entries: a sparkline has one block
for each value (`exists_blocks_of_sparkline`), and a dot plot has the lines and cells of its grid,
with one dot for each value that fits, the newest on the right edge (`lit_lines_iff`). Both are put
together in `drawn_iff_numbers`.
-/

namespace Stopwatch.Plot

open Rounding

variable {v x y : Float} {values : List Float} {top width rows : ℕ}

/-! ## Percentages -/

/-- The lesser of two numbers is one of them. -/
theorem value_least (hx : x.isNaN = false) (hy : y.isNaN = false) :
    (least x y).isNaN = false ∧ value (least x y) = min (value x) (value y) := by
  have hlow : (-1.0 / 0.0 : Float).isNaN = false := rfl
  have hvalue : value (-1.0 / 0.0) = -beyond := rfl
  have hgex := (abs_le.mp (abs_value_le x)).1
  have hgey := (abs_le.mp (abs_value_le y)).1
  unfold least
  simp only [Bool.or_eq_true, Bool.and_eq_true, beq_iff hx hlow,
    beq_iff hy hlow, beq_iff hx isNaN_zero, beq_iff hy isNaN_zero, lt_iff hx hy,
    hx, hy, hvalue, value_zero]
  split_ifs with hinf hnan hzero hsign hlt
  · refine ⟨hlow, ?_⟩
    rcases hinf with hinf | hinf
    · rw [hinf, hvalue, min_eq_left hgey]
    · rw [hinf, hvalue, min_eq_right hgex]
  · exact absurd hnan (by simp)
  · exact ⟨hx, by rw [hzero.1, hzero.2, min_self]⟩
  · exact ⟨hy, by rw [hzero.1, hzero.2, min_self]⟩
  · exact ⟨hx, (min_eq_left hlt.le).symm⟩
  · exact ⟨hy, (min_eq_right (not_lt.mp hlt)).symm⟩

/-- The greater of two numbers is one of them. -/
theorem value_greatest (hx : x.isNaN = false) (hy : y.isNaN = false) :
    (greatest x y).isNaN = false ∧ value (greatest x y) = max (value x) (value y) := by
  have hhigh : (1.0 / 0.0 : Float).isNaN = false := rfl
  have hvalue : value (1.0 / 0.0) = beyond := rfl
  have hlex := (abs_le.mp (abs_value_le x)).2
  have hley := (abs_le.mp (abs_value_le y)).2
  unfold greatest
  simp only [Bool.or_eq_true, Bool.and_eq_true, beq_iff hx hhigh,
    beq_iff hy hhigh, beq_iff hx isNaN_zero, beq_iff hy isNaN_zero, lt_iff hy hx,
    hx, hy, hvalue, value_zero]
  split_ifs with hinf hnan hzero hsign hlt
  · refine ⟨hhigh, ?_⟩
    rcases hinf with hinf | hinf
    · rw [hinf, hvalue, max_eq_left hley]
    · rw [hinf, hvalue, max_eq_right hlex]
  · exact absurd hnan (by simp)
  · exact ⟨hy, by rw [hzero.1, hzero.2, max_self]⟩
  · exact ⟨hx, by rw [hzero.1, hzero.2, max_self]⟩
  · exact ⟨hx, (max_eq_left hlt.le).symm⟩
  · exact ⟨hy, (max_eq_right (not_lt.mp hlt)).symm⟩

theorem value_hundred : value 100.0 = 100 := by decide +kernel

theorem value_clamp (h : v.isNaN = false) :
    (clamp v).isNaN = false ∧ value (clamp v) = max 0 (min 100 (value v)) := by
  obtain ⟨hnum, hmin⟩ := value_least (x := 100.0) rfl h
  obtain ⟨hnum', hmax⟩ := value_greatest isNaN_zero hnum
  refine ⟨hnum', ?_⟩
  rw [clamp, hmax, hmin, value_hundred, value_zero]

theorem isNaN_clamp (h : v.isNaN = true) : (clamp v).isNaN = true := by
  have hleast : (least 100.0 v).isNaN = true := by
    have hlow : (v == -1.0 / 0.0) = false := beq_of_isNaN (.inl h)
    have hhundred : ((100.0 : Float) == -1.0 / 0.0) = false := by decide
    simp only [least, hlow, hhundred, h, Bool.or_self, Bool.or_true,
      Bool.false_eq_true, if_false, if_true]
    rfl
  have hhigh : (least 100.0 v == 1.0 / 0.0) = false := beq_of_isNaN (.inl hleast)
  have hzero : ((0.0 : Float) == 1.0 / 0.0) = false := by decide
  simp only [clamp, greatest, hhigh, hzero, hleast, Bool.or_self, Bool.or_true,
    Bool.false_eq_true, if_false, if_true]
  rfl

/-- **The level of a number is on the scale.** -/
theorem level_bounds (htop : top ≤ 2 ^ 53) (h : v.isNaN = false) :
    0 ≤ level top v ∧ level top v ≤ top := by
  obtain ⟨hnum, hclamp⟩ := value_clamp h
  have h0 : 0 ≤ value (clamp v) := hclamp ▸ le_max_left _ _
  have h100 : value (clamp v) ≤ 100 := hclamp ▸ max_le (by norm_num) (min_le_left _ _)
  have hgrid : OnGrid 100 := onGrid_nat (n := 100) (by norm_num)
  obtain ⟨hcf, -⟩ := (rounds_value hnum).between onGrid_zero hgrid h0 h100
  -- The share of the range lies between zero and one, which no rounding leaves.
  have hshare : 0 ≤ value (clamp v) / value 100.0 ∧ value (clamp v) / value 100.0 ≤ 1 := by
    rw [value_hundred]
    exact ⟨by positivity, (div_le_one (by norm_num)).mpr h100⟩
  obtain ⟨hqf, hq0, hq1⟩ :=
    (rounds_div (y := 100.0) hcf rfl (by rw [value_hundred]; norm_num)).between onGrid_zero
      onGrid_one hshare.1 hshare.2
  obtain ⟨htf, htv⟩ := (rounds_toFloat top).exact (onGrid_nat htop)
  have hcast : (0 : ℚ) ≤ top := Nat.cast_nonneg top
  have hproduct := rounds_mul hqf htf
  rw [htv] at hproduct
  obtain ⟨hpf, hp0, hp1⟩ := hproduct.between onGrid_zero (onGrid_nat htop) (mul_nonneg hq0 hcast)
    (mul_le_of_le_one_left hcast hq1)
  have hle : (top : ℚ) ≤ 2 ^ 53 := by exact_mod_cast htop
  have hlt : value (clamp v / 100.0 * top.toFloat) < 2 ^ 63 := by linarith
  rw [level, toInt_truncInt64_eq_floor (isFinite_iff.mp hpf).1 hp0 hlt]
  exact ⟨Int.floor_nonneg.mpr hp0, by exact_mod_cast (Int.floor_le _).trans hp1⟩

/-- What is no number is on no scale. -/
theorem level_of_isNaN (h : v.isNaN = true) : level top v = -2 ^ 63 := by
  rw [level, truncInt64_of_isNaN (isNaN_mul_left (isNaN_div_left (isNaN_clamp h) _) _)]
  rfl

/-! ## All values of a series -/

theorem mapM_eq_some_iff {α β : Type} {f : α → Option β} {l : List α} {m : List β} :
    l.mapM f = some m ↔ l.map f = m.map some := by
  induction l generalizing m with
  | nil => cases m <;> simp
  | cons a l ih =>
    rw [List.mapM_cons, List.map_cons]
    cases hf : f a with
    | none => cases m <;> simp
    | some b =>
      cases hl : l.mapM f with
      | none =>
        cases m with
        | nil => simp
        | cons c m =>
          have hne : l.map f ≠ m.map some := fun h => by simp [ih.mpr h] at hl
          simp [hne]
      | some bs =>
        cases m with
        | nil => simp
        | cons c m => simp [← ih, hl]

theorem isSome_mapM_iff {α β : Type} {f : α → Option β} {l : List α} :
    (l.mapM f).isSome = true ↔ ∀ a ∈ l, (f a).isSome = true := by
  induction l with
  | nil => simp
  | cons a l ih =>
    rw [List.mapM_cons, List.forall_mem_cons, ← ih]
    cases f a <;> cases l.mapM f <;> simp

/-! ## Sparklines -/

theorem block?_of_nonneg {n : ℤ} (h : 0 ≤ n) : ∃ c ∈ blocks, block? n = some c := by
  have hlt : (min n (highest : ℤ)).toNat < blocks.length := by
    have hhighest : (highest : ℤ) = 7 := rfl
    have hlength : blocks.length = 8 := rfl
    omega
  refine ⟨blocks[(min n (highest : ℤ)).toNat], List.getElem_mem hlt, ?_⟩
  have hnonneg : ¬ min n (highest : ℤ) < 0 := not_lt.mpr (le_min h (Int.natCast_nonneg _))
  rw [block?, if_neg hnonneg, List.getElem?_eq_getElem hlt]

theorem block?_of_neg {n : ℤ} (h : n < 0) : block? n = none := by
  have hlt : min n (highest : ℤ) < 0 := min_lt_of_left_lt h
  rw [block?]
  exact if_pos hlt

/-- A value has a block if and only if it is a number. -/
theorem isSome_block?_iff : (block? (level highest v)).isSome = true ↔ v.isNaN = false := by
  cases hnan : v.isNaN with
  | true => simp [block?_of_neg (n := level highest v) (by rw [level_of_isNaN hnan]; decide)]
  | false =>
    obtain ⟨c, -, hblock⟩ :=
      block?_of_nonneg (level_bounds (show highest ≤ 2 ^ 53 by decide) hnan).1
    simp [hblock]

theorem isSome_sparkline_iff : (sparkline? values).isSome = true ↔
    ∀ v ∈ values, v.isNaN = false := by
  rw [sparkline?, Option.isSome_map, isSome_mapM_iff]
  simp only [isSome_block?_iff]

/-- **A sparkline has one of the blocks for each value.** -/
theorem exists_blocks_of_sparkline {t : Text} (h : sparkline? values = some t) :
    ∃ cs : List Char, t.runes = cs.map .char ∧ cs.length = values.length ∧
      ∀ c ∈ cs, c ∈ blocks := by
  obtain ⟨cs, hcs, rfl⟩ := Option.map_eq_some_iff.mp h
  rw [mapM_eq_some_iff] at hcs
  refine ⟨cs, Text.runes_ofChars cs, ?_, ?_⟩
  · simpa using (congrArg List.length hcs).symm
  · intro c hc
    obtain ⟨v, -, hv⟩ := List.mem_map.mp (hcs ▸ List.mem_map_of_mem hc)
    have hlevel : 0 ≤ level highest v := by
      by_contra hneg
      rw [block?_of_neg (not_le.mp hneg)] at hv
      exact absurd hv (by simp)
    obtain ⟨d, hd, hblock⟩ := block?_of_nonneg hlevel
    rw [hblock, Option.some_inj] at hv
    exact hv ▸ hd

/-! ## Dot plots -/

theorem isSome_dotRow?_iff (hpos : 0 < rows) (hrows : 4 * rows ≤ 2 ^ 53) :
    (dotRow? rows v).isSome = true ↔ v.isNaN = false := by
  unfold dotRow?
  dsimp only
  cases hnan : v.isNaN with
  | true =>
    rw [level_of_isNaN hnan, if_neg (by omega)]
    simp
  | false =>
    have hbounds := level_bounds (show 4 * rows - 1 ≤ 2 ^ 53 by omega) hnan
    rw [if_pos (by omega)]
    simp

theorem lt_of_dotRow? {y : ℕ} (h : dotRow? rows v = some y) : y < 4 * rows := by
  unfold dotRow? at h
  dsimp only at h
  split_ifs at h with hrange
  rw [Option.some_inj] at h
  omega

theorem length_newest (values : List Float) (width : ℕ) :
    (newest values width).length = min values.length (2 * width) := by
  rw [newest, List.length_drop]
  omega

/-- Where the dots of a series are: each value that fits has one in its own column, the newest in
the last. -/
theorem getD_dots {dots : Array (Option ℕ)} (h : dots? values width rows = some dots) (x y : ℕ) :
    dots.getD x none = some y ↔ ∃ i v, (newest values width)[i]? = some v ∧
        dotRow? rows v = some y ∧
      x = 2 * width - (newest values width).length + i := by
  obtain ⟨ys, hys, rfl⟩ := Option.map_eq_some_iff.mp h
  rw [mapM_eq_some_iff] at hys
  rw [← hys, Array.getD_eq_getD_getElem?, List.getElem?_toArray]
  set offset := 2 * width - (newest values width).length with hoffset
  rw [List.getElem?_append, List.length_replicate, List.getElem?_replicate, List.getElem?_map]
  split_ifs with hx
  · refine iff_of_false (by simp) ?_
    rintro ⟨i, v, -, -, rfl⟩
    omega
  · constructor
    · intro hy
      cases hv : (newest values width)[x - offset]? with
      | none => simp [hv] at hy
      | some v => exact ⟨x - offset, v, hv, by simpa [hv] using hy, by omega⟩
    · rintro ⟨i, v, hv, hrow, rfl⟩
      simp [hv, hrow]

/-! ## Braille cells -/

/-- The number of a dot in a cell: 1, 2, 3 and 7 down the left side, 4, 5, 6 and 8 down the right
side. -/
def dotNumber (side row : ℕ) : ℕ := (if side = 0 then [1, 2, 3, 7] else [4, 5, 6, 8]).getD row 0

/-- The character is a braille cell. -/
def IsCell (c : Char) : Prop := 0x2800 ≤ c.toNat ∧ c.toNat < 0x2900

/-- A dot of a cell is raised: from the blank cell on, each dot has a bit, by its number. -/
def Raised (c : Char) (side row : ℕ) : Prop :=
  (c.toNat - 0x2800).testBit (dotNumber side row - 1) = true

/-- A dot of a drawing is lit. -/
def Lit (ls : List Text) (x y : ℕ) : Prop :=
  ∃ line c, ls[y / 4]? = some line ∧ line.runes[x / 2]? = some (.char c) ∧ Raised c (x % 2) (y % 4)

/-- The row inside of a cell that the dot of a dot column is in; none if it is in another cell. -/
def rowIn (row : ℕ) (dot : Option ℕ) : Option ℕ := (dot.filter (· / 4 == row)).map (· % 4)

/-- The character of a cell with one dot on each side at most. -/
def cellOf (left right : Option ℕ) : Char :=
  Char.ofNat (0x2800 + left.elim 0 (dotBit 0) + right.elim 0 (dotBit 1))

theorem rowIn_eq_some_iff {row k : ℕ} (hk : k < 4) {dot : Option ℕ} :
    rowIn row dot = some k ↔ dot = some (4 * row + k) := by
  cases dot with
  | none => simp [rowIn]
  | some y =>
    rw [rowIn, Option.some_inj, Option.map_eq_some_iff]
    simp only [Option.filter_eq_some_iff, Option.some_inj, beq_iff_eq]
    constructor
    · rintro ⟨z, ⟨rfl, hrow⟩, hmod⟩
      omega
    · rintro rfl
      exact ⟨_, ⟨rfl, by omega⟩, by omega⟩

theorem rowIn_mem (row : ℕ) (dot : Option ℕ) :
    rowIn row dot ∈ [none, some 0, some 1, some 2, some 3] := by
  cases h : rowIn row dot with
  | none => simp
  | some k =>
    obtain ⟨y, -, rfl⟩ := Option.map_eq_some_iff.mp h
    have hlt : y % 4 < 4 := Nat.mod_lt y (by decide)
    interval_cases y % 4 <;> simp

theorem elim_rowIn (row side y : ℕ) :
    (rowIn row (some y)).elim 0 (dotBit side) =
      if y / 4 == row then dotBit side (y % 4) else 0 := by
  by_cases h : y / 4 == row <;> simp [rowIn, Option.filter, h]

theorem cell_eq (dots : Array (Option ℕ)) (row column : ℕ) :
    cell dots row column =
      cellOf (rowIn row (dots.getD (2 * column) none))
      (rowIn row (dots.getD (2 * column + 1) none)) := by
  simp only [cell, cellOf, Nat.add_zero]
  cases dots.getD (2 * column) none with
  | none =>
    cases dots.getD (2 * column + 1) none with
    | none => rfl
    | some right => rw [elim_rowIn]; rfl
  | some left =>
    cases dots.getD (2 * column + 1) none with
    | none => rw [elim_rowIn]; rfl
    | some right => rw [elim_rowIn, elim_rowIn]

/-- Whatever dots a cell has, its character is a braille cell in which these dots are raised and no
other. -/
theorem raised_cellOf : ∀ left ∈ [none, some 0, some 1, some 2, some 3],
    ∀ right ∈ [none, some 0, some 1, some 2, some 3], ∀ side < 2, ∀ k < 4,
      (0x2800 ≤ (cellOf left right).toNat ∧ (cellOf left right).toNat < 0x2900) ∧
        (((cellOf left right).toNat - 0x2800).testBit (dotNumber side k - 1) = true ↔
          (if side = 0 then left else right) = some k) := by
  decide

theorem isCell_cell (dots : Array (Option ℕ)) (row column : ℕ) : IsCell (cell dots row column) := by
  rw [cell_eq]
  exact (raised_cellOf _ (rowIn_mem _ _) _ (rowIn_mem _ _) 0 (by decide) 0 (by decide)).1

theorem raised_cell_iff (dots : Array (Option ℕ)) (row column : ℕ) {side k : ℕ}
    (hside : side < 2) (hk : k < 4) :
    Raised (cell dots row column) side k ↔
      dots.getD (2 * column + side) none = some (4 * row + k) := by
  rw [Raised, cell_eq, (raised_cellOf _ (rowIn_mem _ _) _ (rowIn_mem _ _) side hside k hk).2]
  obtain rfl | rfl : side = 0 ∨ side = 1 := by omega
  · exact rowIn_eq_some_iff hk
  · exact rowIn_eq_some_iff hk

/-- The lines of a grid with dots. -/
def gridLines (dots : Array (Option ℕ)) (width rows : ℕ) : List Text :=
  (List.range rows).map fun row =>
    Text.ofChars ((List.range width).map fun column => cell dots row column)

theorem getElem?_range_eq_some_iff {n i j : ℕ} : (List.range n)[i]? = some j ↔ i < n ∧ i = j := by
  simp [List.getElem?_eq_some_iff]

theorem lit_gridLines_iff (dots : Array (Option ℕ)) (x y : ℕ) :
    Lit (gridLines dots width rows) x y ↔ (x < 2 * width ∧ y < 4 * rows) ∧
      dots.getD x none = some y := by
  have hx : 2 * (x / 2) + x % 2 = x := Nat.div_add_mod x 2
  have hy : 4 * (y / 4) + y % 4 = y := Nat.div_add_mod y 4
  have hraised := raised_cell_iff dots (y / 4) (x / 2) (Nat.mod_lt x (by decide))
    (Nat.mod_lt y (by decide))
  rw [hx, hy] at hraised
  unfold Lit gridLines
  rw [List.getElem?_map]
  constructor
  · rintro ⟨line, c, hline, hc, hlit⟩
    obtain ⟨row, hrow, rfl⟩ := Option.map_eq_some_iff.mp hline
    obtain ⟨hlt, rfl⟩ := getElem?_range_eq_some_iff.mp hrow
    rw [Text.runes_ofChars, List.map_map, List.getElem?_map] at hc
    obtain ⟨column, hcolumn, heq⟩ := Option.map_eq_some_iff.mp hc
    obtain ⟨hlt', rfl⟩ := getElem?_range_eq_some_iff.mp hcolumn
    obtain rfl := Rune.char.inj heq
    exact ⟨⟨by omega, by omega⟩, hraised.mp hlit⟩
  · rintro ⟨⟨hlt, hlt'⟩, hdot⟩
    rw [List.getElem?_range (by omega), Option.map_some]
    refine ⟨_, cell dots (y / 4) (x / 2), rfl, ?_, hraised.mpr hdot⟩
    rw [Text.runes_ofChars, List.map_map, List.getElem?_map, List.getElem?_range (by omega)]
    rfl

/-- A grid has its number of lines, and each of them its number of braille cells. -/
theorem gridLines_shape (dots : Array (Option ℕ)) (width rows : ℕ) :
    (gridLines dots width rows).length = rows ∧ ∀ line ∈ gridLines dots width rows,
      ∃ cs : List Char, line.runes = cs.map .char ∧ cs.length = width ∧ ∀ c ∈ cs, IsCell c := by
  refine ⟨by rw [gridLines, List.length_map, List.length_range], fun line hline => ?_⟩
  obtain ⟨row, -, rfl⟩ := List.mem_map.mp hline
  refine ⟨_, Text.runes_ofChars _, by rw [List.length_map, List.length_range], fun c hc => ?_⟩
  obtain ⟨column, -, rfl⟩ := List.mem_map.mp hc
  exact isCell_cell dots row column

/-- A dot is lit where a value that fits has its row, in the column that is its own. -/
theorem lit_drawing_iff {dots : Array (Option ℕ)}
    (hdots : dots? values width rows = some dots) (x y : ℕ) :
    Lit (gridLines dots width rows) x y ↔ ∃ i v, (newest values width)[i]? = some v ∧
        dotRow? rows v = some y ∧
      x = 2 * width - (newest values width).length + i := by
  have hfits : (newest values width).length ≤ 2 * width := by
    rw [length_newest]; exact min_le_right _ _
  rw [lit_gridLines_iff, getD_dots hdots]
  refine and_iff_right_of_imp ?_
  rintro ⟨i, v, hi, hv, rfl⟩
  obtain ⟨hlt, -⟩ := List.getElem?_eq_some_iff.mp hi
  exact ⟨by omega, lt_of_dotRow? hv⟩

/-- There is a drawing on a grid that there is room for if and only if all values that fit are
numbers. -/
theorem isSome_dots_iff (values : List Float) (width : ℕ) (hpos : 0 < rows)
    (hrows : 4 * rows ≤ 2 ^ 53) :
    (dots? values width rows).isSome = true ↔ ∀ v ∈ newest values width, v.isNaN = false := by
  rw [dots?, Option.isSome_map, isSome_mapM_iff]
  simp only [isSome_dotRow?_iff hpos hrows]

theorem lines?_eq (values : List Float) {width rows : ℤ} (hwidth : 1 ≤ width) (hrows : 1 ≤ rows)
    (hroom : isPossible width rows = true) :
    lines? values width rows =
      if values = [] then some []
      else (dots? values width.toNat rows.toNat).map fun dots =>
        gridLines dots width.toNat rows.toNat := by
  have hw : ¬ width ≤ 0 := by omega
  have hr : ¬ rows ≤ 0 := by omega
  simp only [lines?, hw, hr, hroom, decide_false, Bool.false_or, Bool.not_true,
    Bool.false_eq_true, if_false, List.isEmpty_iff]
  rfl

/-- The rows of a grid that there is room for can be counted by floats. -/
theorem four_mul_le_of_isPossible {width rows : ℤ} (h : isPossible width rows = true) :
    4 * rows.toNat ≤ 2 ^ 53 := by
  have hmost : Room.most = 2 ^ 48 := rfl
  simp only [isPossible, Room.holds, hmost, Bool.and_eq_true, decide_eq_true_eq] at h
  have hbytes := h.2.2
  push_cast at hbytes
  omega

/-! ## What is drawn -/

/-- **A series of numbers is drawn, and nothing else is.** A sparkline exists if and only if all
values are numbers, and then it has one of the blocks for each. A dot plot on a grid that there is
room for exists if and only if the values that fit are numbers. Without a value it has no lines.
Otherwise it has the lines and the braille cells of the grid, and a dot is lit exactly where one of
these values has its row, in the column that is its own, with the last value in the last. -/
theorem drawn_iff_numbers (values : List Float) (width rows : ℤ)
    (hwidth : 1 ≤ width) (hrows : 1 ≤ rows) (hroom : isPossible width rows = true) :
    let shown := newest values width.toNat
    ((sparkline? values).isSome = true ↔ ∀ v ∈ values, v.isNaN = false) ∧
      (∀ t, sparkline? values = some t →
        ∃ cs : List Char, t.runes = cs.map .char ∧
          cs.length = values.length ∧ ∀ c ∈ cs, c ∈ blocks) ∧
      ((lines? values width rows).isSome = true ↔ ∀ v ∈ shown, v.isNaN = false) ∧
      (values = [] → lines? values width rows = some []) ∧
      ∀ ls, lines? values width rows = some ls → values ≠ [] →
        (ls.length : ℤ) = rows ∧
          (∀ line ∈ ls, ∃ cs : List Char, line.runes = cs.map .char ∧
            (cs.length : ℤ) = width ∧ ∀ c ∈ cs, IsCell c) ∧
          (shown.length : ℤ) = min (values.length : ℤ) (2 * width) ∧
          (∀ v ∈ shown, ∃ y, dotRow? rows.toNat v = some y ∧ (y : ℤ) < 4 * rows) ∧
          ∀ x y, Lit ls x y ↔ ∃ (i : ℕ) (v : Float), shown[i]? = some v ∧
              dotRow? rows.toNat v = some y ∧
            (x : ℤ) = 2 * width - shown.length + i := by
  intro shown
  have hshown : newest values width.toNat = shown := rfl
  clear_value shown
  have hsmall : 4 * rows.toNat ≤ 2 ^ 53 := four_mul_le_of_isPossible hroom
  have hlength := length_newest values width.toNat
  have hdots := isSome_dots_iff values width.toNat (show 0 < rows.toNat by omega) hsmall
  rw [hshown] at hlength hdots
  rw [lines?_eq values hwidth hrows hroom]
  refine ⟨isSome_sparkline_iff, fun t ht => exists_blocks_of_sparkline ht, ?_,
    fun hempty => if_pos hempty, fun ls hls hne => ?_⟩
  · split_ifs with hempty
    · simp [← hshown, hempty, newest]
    · rw [Option.isSome_map]
      exact hdots
  · rw [if_neg hne] at hls
    obtain ⟨dots, hsome, rfl⟩ := Option.map_eq_some_iff.mp hls
    obtain ⟨hcount, hcells⟩ := gridLines_shape dots width.toNat rows.toNat
    refine ⟨by omega, fun line hline => ?_, by omega, fun v hv => ?_, fun x y => ?_⟩
    · obtain ⟨cs, hruns, hcs, hcell⟩ := hcells line hline
      exact ⟨cs, hruns, by omega, hcell⟩
    · have hnumber := hdots.mp (by rw [hsome]; rfl) v hv
      obtain ⟨y, hy⟩ :=
        Option.isSome_iff_exists.mp ((isSome_dotRow?_iff (by omega) hsmall).mpr hnumber)
      have hlt := lt_of_dotRow? hy
      exact ⟨y, hy, by omega⟩
    · rw [lit_drawing_iff hsome, hshown]
      refine exists_congr fun i => exists_congr fun v => and_congr_right fun _ =>
        and_congr_right fun _ => ?_
      omega

/-- What is no number is in the way of a sparkline, and of a dot plot only as long as it fits. -/
theorem drawn_of_older_no_number :
    (1 : ℤ) ≤ 1 ∧ isPossible 1 1 = true ∧
        (sparkline? [0.0 / 0.0, -1.0 / 0.0, 100.0]).isSome = false ∧
      (lines? [0.0 / 0.0, -1.0 / 0.0, 100.0] 1 1).isSome = true := by
  obtain ⟨hsparkline, -, hlines, -⟩ :=
    drawn_iff_numbers [0.0 / 0.0, -1.0 / 0.0, 100.0] 1 1 (by decide) (by decide) (by decide)
  have hshown : newest [0.0 / 0.0, -1.0 / 0.0, 100.0] (1 : ℤ).toNat = [-1.0 / 0.0, 100.0] := rfl
  rw [hshown] at hlines
  refine ⟨by decide, by decide, ?_, hlines.mpr (by decide)⟩
  refine Bool.eq_false_iff.mpr fun hsome => ?_
  exact absurd (hsparkline.mp hsome (0.0 / 0.0) List.mem_cons_self) (by decide)

/-- A value that is no number has no drawing, whatever grid there is room for; and a plot of no
value has no line. -/
theorem not_drawn_of_no_number :
    (¬ ∀ (values : List Float) (width rows : ℤ), 1 ≤ width → 1 ≤ rows →
          isPossible width rows = true →
        (sparkline? values).isSome = true ∧ (lines? values width rows).isSome = true) ∧
      lines? [] 1 1 = some [] := by
  refine ⟨fun h => ?_, rfl⟩
  obtain ⟨hsome, -⟩ := h [0.0 / 0.0] 1 1 (by decide) (by decide) (by decide)
  exact absurd (isSome_sparkline_iff.mp hsome (0.0 / 0.0) List.mem_cons_self) (by decide)

end Stopwatch.Plot
