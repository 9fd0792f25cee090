import Mathlib.Data.List.Basic
import Mathlib.Order.Lattice
import Stopwatch.Sorting.Blocks

/-!
# Stable sorting

A list is sorted stably by a key if the keys do not decrease along it and the elements of each key
stand in the order they had (`Sorts`). No two lists are sorted stably from the same one
(`Sorts.unique`), so all stable ways of sorting give the same list.

Sorting by blocks is one of them wherever "comes before" is the order of keys (`sorts_byBlocks`).
The merge that halves its result needs for this only that the two places where the halves end fit
together (`Cuts`). Two comparisons say so (`cuts_of_neighbours`), and halving finds a place that
passes both, because it always ends where the property it asks for turns (`turnsAt_firstFailing`),
whether or not the property turns only once.
-/

namespace Stopwatch.Sorting

variable {α β : Type} [LinearOrder β] {key : α → β} {before : α → α → Bool}
    {xs ys zs left right : List α}

/-! ## Lists sorted stably -/

/-- `ys` holds the elements of `xs` with keys that do not decrease, those of one key in the order of
`xs`. -/
structure Sorts (key : α → β) (xs ys : List α) : Prop where
  sorted : ys.Pairwise (key · ≤ key ·)
  stable : ∀ k, ys.filter (key · = k) = xs.filter (key · = k)

theorem eq_of_sorted (hy : ys.Pairwise (key · ≤ key ·)) (hz : zs.Pairwise (key · ≤ key ·))
    (h : ∀ k, ys.filter (key · = k) = zs.filter (key · = k)) : ys = zs := by
  have hmem : ∀ x, x ∈ ys ↔ x ∈ zs := by
    intro x
    have := congrArg (x ∈ ·) (h (key x))
    simpa using this
  induction ys generalizing zs with
  | nil =>
    cases zs with
    | nil => rfl
    | cons z zs => exact absurd ((hmem z).mpr List.mem_cons_self) List.not_mem_nil
  | cons y ys ih =>
    cases zs with
    | nil => exact absurd ((hmem y).mp List.mem_cons_self) List.not_mem_nil
    | cons z zs =>
      have hyz : key y ≤ key z := by
        rcases List.mem_cons.mp ((hmem z).mpr List.mem_cons_self) with rfl | hin
        · exact le_rfl
        · exact List.rel_of_pairwise_cons hy hin
      have hzy : key z ≤ key y := by
        rcases List.mem_cons.mp ((hmem y).mp List.mem_cons_self) with rfl | hin
        · exact le_rfl
        · exact List.rel_of_pairwise_cons hz hin
      have hkey : key y = key z := le_antisymm hyz hzy
      -- Both are the first of their key.
      obtain rfl : y = z := by
        have := h (key y)
        simp only [List.filter_cons, hkey, decide_true, if_true, List.cons.injEq] at this
        exact this.1
      have htail : ∀ k, ys.filter (key · = k) = zs.filter (key · = k) := by
        intro k
        have := h k
        by_cases hk : key y = k <;> simpa [hk] using this
      rw [ih hy.of_cons hz.of_cons htail fun x => ?_]
      have := congrArg (x ∈ ·) (htail (key x))
      simpa using this

namespace Sorts

theorem refl (h : xs.Pairwise (key · ≤ key ·)) : Sorts key xs xs := ⟨h, fun _ => rfl⟩

/-- **There is only one list that is sorted stably.** -/
theorem unique (hy : Sorts key xs ys) (hz : Sorts key xs zs) : ys = zs :=
  eq_of_sorted hy.sorted hz.sorted fun k => (hy.stable k).trans (hz.stable k).symm

theorem mem_iff (h : Sorts key xs ys) {x : α} : x ∈ ys ↔ x ∈ xs := by
  have := congrArg (x ∈ ·) (h.stable (key x))
  simpa using this

end Sorts

/-! ## "Comes before" as the order of keys -/

/-- On these elements, "comes before" is the order of keys. -/
def Follows (key : α → β) (before : α → α → Bool) (xs : List α) : Prop :=
  ∀ a ∈ xs, ∀ b ∈ xs, (before a b = true ↔ key a < key b)

theorem Follows.mono (h : Follows key before xs) (hsub : ys ⊆ xs) : Follows key before ys :=
  fun a ha b hb => h a (hsub ha) b (hsub hb)

/-! ## Insertion -/

variable {x : α}

theorem mem_insertBack {a : α} : a ∈ insertBack before x xs ↔ a = x ∨ a ∈ xs :=
  (insertBack_perm before x xs).mem_iff.trans List.mem_cons

/-- The list runs backwards, so keys do not increase along it. -/
theorem pairwise_insertBack (h : Follows key before (x :: xs))
    (hs : xs.Pairwise fun a b => key b ≤ key a) :
    (insertBack before x xs).Pairwise fun a b => key b ≤ key a := by
  fun_induction insertBack before x xs with
  | case1 => exact List.pairwise_singleton _ _
  | case2 y ys hlt ih =>
    obtain ⟨hy, hys⟩ := List.pairwise_cons.mp hs
    have hxy : key x < key y := (h x (by simp) y (by simp)).mp hlt
    refine List.pairwise_cons.mpr ⟨fun a ha => ?_, ih (h.mono (by simp)) hys⟩
    rcases mem_insertBack.mp ha with rfl | ha
    · exact hxy.le
    · exact hy a ha
  | case3 y ys hnot =>
    have hyx : key y ≤ key x := not_lt.mp fun hlt => hnot ((h x (by simp) y (by simp)).mpr hlt)
    refine List.pairwise_cons.mpr ⟨fun a ha => ?_, hs⟩
    rcases List.mem_cons.mp ha with rfl | ha
    · exact hyx
    · exact (List.rel_of_pairwise_cons hs ha).trans hyx

theorem filter_insertBack (h : Follows key before (x :: xs)) (k : β) :
    (insertBack before x xs).filter (key · = k) = (x :: xs).filter (key · = k) := by
  fun_induction insertBack before x xs with
  | case1 => rfl
  | case2 y ys hlt ih =>
    have hxy : key x < key y := (h x (by simp) y (by simp)).mp hlt
    rw [List.filter_cons, ih (h.mono (by simp))]
    by_cases hy : key y = k
    · have hx : key x ≠ k := (hy ▸ hxy).ne
      simp [hx, hy]
    · simp [List.filter_cons, hy]
  | case3 => rfl

/-- One more element is inserted into what has been sorted so far, which runs backwards. -/
theorem sorts_insertBack (h : Follows key before (x :: xs)) (hs : Sorts key zs xs.reverse) :
    Sorts key (zs ++ [x]) (insertBack before x xs).reverse := by
  have hsorted := pairwise_insertBack h (List.pairwise_reverse.mp hs.sorted)
  refine ⟨List.pairwise_reverse.mpr hsorted, fun k => ?_⟩
  rw [List.filter_reverse, filter_insertBack h, ← List.filter_reverse,
    List.reverse_cons, List.filter_append, hs.stable, List.filter_append]

theorem sorts_foldl_insertBack (h : Follows key before (zs ++ xs)) (hs : Sorts key zs ys.reverse) :
    Sorts key (zs ++ xs) (xs.foldl (fun sorted x => insertBack before x sorted) ys).reverse := by
  induction xs generalizing zs ys with
  | nil => simpa using hs
  | cons x xs ih =>
    have hx : Follows key before (x :: ys) := by
      refine h.mono (List.cons_subset.mpr ⟨by simp, fun a ha => ?_⟩)
      exact List.mem_append_left _ (hs.mem_iff.mp (List.mem_reverse.mpr ha))
    rw [List.append_cons] at h ⊢
    exact ih h (sorts_insertBack hx hs)

theorem sorts_byInsertion (h : Follows key before xs) : Sorts key xs (byInsertion before xs) := by
  have hnil : Sorts key [] ([] : List α).reverse := .refl List.Pairwise.nil
  show Sorts key ([] ++ xs) (xs.foldl (fun sorted x => insertBack before x sorted) []).reverse
  exact sorts_foldl_insertBack h hnil

/-! ## Halving -/

/-- A property turns at a place between `lo` and `hi`: it holds right before it and fails right
there, as far as these places lie between the two. -/
structure TurnsAt (p : ℕ → Bool) (lo hi place : ℕ) : Prop where
  lo_le : lo ≤ place
  le_hi : place ≤ hi
  holds : lo < place → p (place - 1) = true
  fails : place < hi → p place = false

/-- **Halving ends where the property turns.** -/
theorem turnsAt_firstFailing (p : ℕ → Bool) {lo hi : ℕ} (h : lo ≤ hi) :
    TurnsAt p lo hi (firstFailing p lo hi) := by
  fun_induction firstFailing p lo hi with
  | case1 lo hi hlt mid hp ih =>
    have hmid : lo ≤ mid ∧ mid + 1 ≤ hi := by omega
    obtain ⟨h1, h2, h3, h4⟩ := ih hmid.2
    refine ⟨by omega, h2, fun _ => ?_, h4⟩
    rcases Nat.lt_or_eq_of_le h1 with hlt | heq
    · exact h3 hlt
    · rw [← heq]
      exact hp
  | case2 lo hi hlt mid hp ih =>
    have hmid : lo ≤ mid ∧ mid < hi := by omega
    obtain ⟨h1, h2, h3, h4⟩ := ih hmid.1
    refine ⟨h1, by omega, h3, fun _ => ?_⟩
    rcases Nat.lt_or_eq_of_le h2 with hlt | heq
    · exact h4 hlt
    · rw [heq]
      exact Bool.eq_false_iff.mpr hp
  | case3 lo hi hge =>
    exact ⟨Nat.le_refl _, h, fun hlt => absurd hlt (Nat.lt_irrefl _), fun hlt => absurd hlt hge⟩

/-! ## Cutting two sorted lists -/

/-- Two sorted lists are cut after `m` and `n` elements so that the first parts come before the
second ones. An element of the second list that goes first has a smaller key than all that stay
behind of the first one. -/
structure Cuts (key : α → β) (left right : List α) (m n : ℕ) : Prop where
  first_le : ∀ a ∈ left.take m, ∀ b ∈ right.drop n, key a ≤ key b
  second_lt : ∀ b ∈ right.take n, ∀ a ∈ left.drop m, key b < key a

theorem le_of_mem_take (h : xs.Pairwise (key · ≤ key ·)) {n : ℕ} (hn : n ≤ xs.length)
    {a : α} (ha : a ∈ xs.take n) :
    ∃ hlt : n - 1 < xs.length, 0 < n ∧ key a ≤ key xs[n - 1] := by
  obtain ⟨i, hi, rfl⟩ := List.mem_take_iff_getElem.mp ha
  refine ⟨by omega, by omega, ?_⟩
  rcases Nat.lt_or_ge i (n - 1) with hlt | hge
  · exact List.pairwise_iff_getElem.mp h i (n - 1) (by omega) (by omega) hlt
  · have heq : i = n - 1 := by omega
    simp only [heq, le_refl]

theorem le_of_mem_drop (h : xs.Pairwise (key · ≤ key ·)) {n : ℕ} {a : α} (ha : a ∈ xs.drop n) :
    ∃ hlt : n < xs.length, key xs[n] ≤ key a := by
  obtain ⟨i, hi, rfl⟩ := List.mem_drop_iff_getElem.mp ha
  refine ⟨by omega, ?_⟩
  rcases Nat.eq_zero_or_pos i with rfl | hpos
  · simp
  · exact List.pairwise_iff_getElem.mp h n (n + i) (by omega) (by omega) (by omega)

/-- **Whether cuts fit together is a matter of the elements next to them.** -/
theorem cuts_of_neighbours {m n : ℕ} (hl : left.Pairwise (key · ≤ key ·))
    (hr : right.Pairwise (key · ≤ key ·)) (hm : m ≤ left.length) (hn : n ≤ right.length)
    (hfirst : ∀ (h : m - 1 < left.length) (h' : n < right.length), 0 < m →
      key left[m - 1] ≤ key right[n])
    (hsecond : ∀ (h : n - 1 < right.length) (h' : m < left.length), 0 < n →
      key right[n - 1] < key left[m]) :
    Cuts key left right m n := by
  constructor
  · intro a ha b hb
    obtain ⟨hlt, hpos, hle⟩ := le_of_mem_take hl hm ha
    obtain ⟨hlt', hle'⟩ := le_of_mem_drop hr hb
    exact hle.trans ((hfirst hlt hlt' hpos).trans hle')
  · intro b hb a ha
    obtain ⟨hlt, hpos, hle⟩ := le_of_mem_take hr hn hb
    obtain ⟨hlt', hle'⟩ := le_of_mem_drop hl ha
    exact hle.trans_lt ((hsecond hlt hlt' hpos).trans_le hle')

/-- **Lists that are cut can be sorted part by part.** -/
theorem Cuts.sorts_append {m n : ℕ} {first second : List α} (hl : left.Pairwise (key · ≤ key ·))
    (hr : right.Pairwise (key · ≤ key ·)) (hcut : Cuts key left right m n)
    (hfirst : Sorts key (left.take m ++ right.take n) first)
    (hsecond : Sorts key (left.drop m ++ right.drop n) second) :
    Sorts key (left ++ right) (first ++ second) := by
  have hleft : ∀ a ∈ left.take m, ∀ b ∈ left.drop m, key a ≤ key b := by
    rw [← List.take_append_drop m left] at hl
    exact (List.pairwise_append.mp hl).2.2
  have hright : ∀ a ∈ right.take n, ∀ b ∈ right.drop n, key a ≤ key b := by
    rw [← List.take_append_drop n right] at hr
    exact (List.pairwise_append.mp hr).2.2
  refine ⟨List.pairwise_append.mpr ⟨hfirst.sorted, hsecond.sorted,
    fun a ha b hb => ?_⟩, fun k => ?_⟩
  · rcases List.mem_append.mp (hfirst.mem_iff.mp ha) with ha | ha <;>
      rcases List.mem_append.mp (hsecond.mem_iff.mp hb) with hb | hb
    · exact hleft a ha b hb
    · exact hcut.first_le a ha b hb
    · exact (hcut.second_lt a ha b hb).le
    · exact hright a ha b hb
  · -- The key of an element of the second list that goes first is not left in the first list.
    have hapart : (left.drop m).filter (key · = k) ++ (right.take n).filter (key · = k) =
        (right.take n).filter (key · = k) ++ (left.drop m).filter (key · = k) := by
      by_cases hnil : (right.take n).filter (key · = k) = []
      · simp [hnil]
      · obtain ⟨b, hb⟩ := List.exists_mem_of_ne_nil _ hnil
        obtain ⟨hb, hbk⟩ := List.mem_filter.mp hb
        have : (left.drop m).filter (key · = k) = [] := by
          refine List.filter_eq_nil_iff.mpr fun a ha hak => ?_
          have hlt := hcut.second_lt b hb a ha
          rw [of_decide_eq_true hbk, of_decide_eq_true hak] at hlt
          exact lt_irrefl k hlt
        simp [this]
    calc (first ++ second).filter (key · = k)
        = (left.take m).filter (key · = k) ++
            ((right.take n).filter (key · = k) ++ (left.drop m).filter (key · = k)) ++
            (right.drop n).filter (key · = k) := by
          simp only [List.filter_append, hfirst.stable, hsecond.stable, List.append_assoc]
      _ = (left.take m ++ left.drop m ++ (right.take n ++ right.drop n)).filter (key · = k) := by
          rw [← hapart]
          simp only [List.filter_append, List.append_assoc]
      _ = (left ++ right).filter (key · = k) := by rw [List.take_append_drop, List.take_append_drop]

/-! ## Merging -/

theorem comesBefore_append {i j : ℕ} (hi : i < right.length) (hj : j < left.length) :
    comesBefore before (left ++ right).toArray (left.length + i) j = before right[i] left[j] := by
  simp [comesBefore, List.getElem?_append_left hj, hi, hj]

/-- The share of the left part is looked for where both parts can fill the first half of the result.
-/
theorem leftShare_eq (before : α → α → Bool) (left right : List α) :
    let half := (left.length + right.length) / 2
    ∃ lo hi, lo ≤ hi ∧ hi ≤ left.length ∧ hi ≤ half ∧ half ≤ lo + right.length ∧
      (lo = 0 ∨ half = lo + right.length) ∧ (hi = half ∨ hi = left.length) ∧
      leftShare before left right =
        firstFailing (fun c => !comesBefore before (left ++ right).toArray
          (half + left.length - 1 - c) c) lo hi := by
  intro half
  have hsize : (left ++ right).toArray.size = left.length + right.length := by simp
  have hshare : ∀ lo hi, lo ≤ hi → hi ≤ half →
      ∀ p, min half (firstFailing p lo hi) = firstFailing p lo hi := by
    intro lo hi hle hhi p
    exact Nat.min_eq_right (Nat.le_trans (turnsAt_firstFailing p hle).le_hi hhi)
  by_cases hlt : half < left.length
  · refine ⟨half - right.length,
      half, by omega, by omega, by omega, by omega, by omega, .inl rfl, ?_⟩
    have hlo : half + left.length - (left.length + right.length) = half - right.length := by omega
    simp only [leftShare, hsize]
    rw [if_pos hlt, ← hlo]
    exact hshare (half + left.length - (left.length + right.length)) half
      (by omega) (Nat.le_refl _) _
  · refine ⟨0, left.length, by omega, by omega, by omega, by omega, .inl rfl, .inr rfl, ?_⟩
    simp only [leftShare, hsize]
    rw [if_neg hlt]
    exact hshare 0 left.length (by omega) (by omega) _

/-- The halves of a merged list end at places that fit together. -/
theorem cuts_leftShare (h : Follows key before (left ++ right)) (hl : left.Pairwise (key · ≤ key ·))
    (hr : right.Pairwise (key · ≤ key ·)) :
    let m := leftShare before left right
    let n := (left.length + right.length) / 2 - m
    m ≤ left.length ∧ n ≤ right.length ∧ Cuts key left right m n := by
  obtain ⟨lo, hi, hle, hhil, hhih, hlo, hlo', hhi', heq⟩ := leftShare_eq before left right
  have hturn := turnsAt_firstFailing (fun c => !comesBefore before (left ++ right).toArray
    ((left.length + right.length) / 2 + left.length - 1 - c) c) hle
  rw [← heq] at hturn
  intro m n
  obtain ⟨h1, h2, h3, h4⟩ : TurnsAt _ lo hi m := hturn
  have hm : m ≤ left.length := by omega
  have hn : n ≤ right.length := by omega
  -- Place `c` of the left part is compared with the place of the right part that mirrors it in the
  -- first half.
  have hcompare : ∀ c i (hc : c < left.length) (hi : i < right.length),
        c + i + 1 = (left.length + right.length) / 2 →
      ((!comesBefore before (left ++ right).toArray
        ((left.length + right.length) / 2 + left.length - 1 - c) c) = true ↔
        key left[c] ≤ key right[i]) := by
    intro c i hc hi hsum
    have hindex : (left.length + right.length) / 2 + left.length - 1 - c =
      left.length + i := by omega
    rw [hindex, comesBefore_append hi hc, Bool.not_eq_true', ← Bool.not_eq_true,
      h _ (by simp) _ (by simp), not_lt]
  refine ⟨hm, hn, cuts_of_neighbours hl hr hm hn (fun hlt hlt' hpos => ?_) fun hlt hlt' hpos => ?_⟩
  · exact (hcompare (m - 1) n hlt hlt' (by omega)).mp (h3 (by omega))
  · have hfails := h4 (by omega)
    exact not_le.mp fun hle => by
      rw [(hcompare m (n - 1) hlt' hlt (by omega)).mpr hle] at hfails
      exact Bool.noConfusion hfails

/-- A property that only the elements up to some place have is found to end there. -/
theorem split_firstFailing (q : α → Bool) (hq : xs.Pairwise fun a b => q b = true → q a = true) :
    let place := firstFailing (fun i => (xs[i]?.map q).getD false) 0 xs.length
    (∀ a ∈ xs.take place, q a = true) ∧ ∀ a ∈ xs.drop place, q a = false := by
  intro place
  obtain ⟨-, hplace, hholds, hfails⟩ : TurnsAt _ 0 xs.length place :=
    turnsAt_firstFailing _ (Nat.zero_le _)
  have hq' : ∀ i j (hj : j < xs.length) (hij : i ≤ j), q xs[j] = true → q xs[i] = true := by
    intro i j hj hij hqj
    rcases Nat.lt_or_eq_of_le hij with hlt | rfl
    · exact List.pairwise_iff_getElem.mp hq i j (by omega) hj hlt hqj
    · exact hqj
  constructor
  · intro a ha
    obtain ⟨i, hi, rfl⟩ := List.mem_take_iff_getElem.mp ha
    refine hq' i (place - 1) (by omega) (by omega) ?_
    simpa [show place - 1 < xs.length by omega] using hholds (by omega)
  · intro a ha
    obtain ⟨i, hi, rfl⟩ := List.mem_drop_iff_getElem.mp ha
    refine Bool.eq_false_iff.mpr fun hqi => ?_
    have := hq' place (place + i) (by omega) (by omega) hqi
    have hfails := hfails (by omega)
    simp [show place < xs.length by omega, this] at hfails

/-- A single element before a list goes before all that do not come before it. -/
theorem sorts_insertFirst (h : Follows key before (x :: ys)) (hs : ys.Pairwise (key · ≤ key ·)) :
    let place := firstFailing (fun i => (ys[i]?.map fun y => before y x).getD false) 0 ys.length
    Sorts key (x :: ys) (ys.take place ++ x :: ys.drop place) := by
  intro place
  obtain ⟨hsmall, hgreat⟩ := split_firstFailing (fun y => before y x)
    (hs.imp_of_mem fun {a b} ha hb hab hbx => by
      rw [h _ (by simp [*]) _ (by simp)] at hbx ⊢
      exact hab.trans_lt hbx)
  have hcut : Cuts key [x] ys 0 place := by
    refine ⟨by simp, fun b hb a ha => ?_⟩
    obtain rfl := List.mem_singleton.mp ha
    exact (h _ (by simp [List.mem_of_mem_take hb]) _ (by simp)).mp (hsmall b hb)
  have hsecond : (x :: ys.drop place).Pairwise (key · ≤ key ·) := by
    refine List.pairwise_cons.mpr ⟨fun b hb => not_lt.mp fun hlt => ?_,
      hs.sublist (List.drop_sublist _ _)⟩
    have := hgreat b hb
    rw [(h _ (by simp [List.mem_of_mem_drop hb]) _ (by simp)).mpr hlt] at this
    exact Bool.noConfusion this
  exact hcut.sorts_append (List.pairwise_singleton _ _) hs
    (.refl (by simpa using hs.sublist (List.take_sublist _ _))) (.refl hsecond)

/-- A single element after a list goes after all that it does not come before. -/
theorem sorts_insertLast (h : Follows key before (xs ++ [x])) (hs : xs.Pairwise (key · ≤ key ·)) :
    let place := firstFailing (fun i => (xs[i]?.map fun y => !before x y).getD false) 0 xs.length
    Sorts key (xs ++ [x]) (xs.take place ++ x :: xs.drop place) := by
  intro place
  obtain ⟨hsmall, hgreat⟩ := split_firstFailing (fun y => !before x y)
    (hs.imp_of_mem fun {a b} ha hb hab hxb => by
      rw [Bool.not_eq_true', ← Bool.not_eq_true, h _ (by simp) _ (by simp [*]), not_lt] at hxb ⊢
      exact hab.trans hxb)
  have hcut : Cuts key xs [x] place 1 := by
    refine ⟨by simp, fun b hb a ha => ?_⟩
    obtain rfl := List.mem_singleton.mp hb
    exact (h _ (by simp) _ (by simp [List.mem_of_mem_drop ha])).mp (by simpa using hgreat a ha)
  have hfirst : (xs.take place ++ [x]).Pairwise (key · ≤ key ·) := by
    refine List.pairwise_append.mpr
      ⟨hs.sublist (List.take_sublist _ _), List.pairwise_singleton _ _,
        fun a ha b hb => not_lt.mp fun hlt => ?_⟩
    obtain rfl := List.mem_singleton.mp hb
    have := hsmall a ha
    rw [(h _ (by simp) _ (by simp [List.mem_of_mem_take ha])).mpr hlt] at this
    exact Bool.noConfusion this
  have := hcut.sorts_append hs (List.pairwise_singleton _ _) (.refl hfirst)
    (.refl (by simpa using hs.sublist (List.drop_sublist place xs)))
  simpa using this

theorem sorts_merge (h : Follows key before (left ++ right)) (hl : left.Pairwise (key · ≤ key ·))
    (hr : right.Pairwise (key · ≤ key ·)) :
    Sorts key (left ++ right) (merge before left right) := by
  fun_induction merge before left right with
  | case1 ys => exact .refl hr
  | case2 xs => simpa using Sorts.refl hl
  | case3 x ys => exact sorts_insertFirst h hr
  | case4 xs y => exact sorts_insertLast h hl
  | case5 x x' xs y y' ys half share ih₁ ih₂ =>
    obtain ⟨hm, hn, hcut⟩ := cuts_leftShare h hl hr
    have hhalf : half = ((x :: x' :: xs).length + (y :: y' :: ys).length) / 2 := by
      simp only [List.length_cons, half]
      omega
    rw [← hhalf] at hcut
    have htake : ∀ (zs : List α) n, (zs.take n).Sublist zs := fun zs n => List.take_sublist n zs
    have hdrop : ∀ (zs : List α) n, (zs.drop n).Sublist zs := fun zs n => List.drop_sublist n zs
    exact hcut.sorts_append hl hr
      (ih₁ (h.mono ((htake _ _).append (htake _ _)).subset) (hl.sublist (htake _ _))
        (hr.sublist (htake _ _)))
      (ih₂ (h.mono ((hdrop _ _).append (hdrop _ _)).subset) (hl.sublist (hdrop _ _))
        (hr.sublist (hdrop _ _)))

/-! ## Merging blocks -/

variable {b c : List α} {bs cs : List (List α)}

/-- The blocks `cs` are sorted, and hold together what the blocks `bs` hold, the elements of one key
in the same order. -/
structure SortsBlocks (key : α → β) (bs cs : List (List α)) : Prop where
  sorted : ∀ c ∈ cs, c.Pairwise (key · ≤ key ·)
  stable : ∀ k, cs.flatten.filter (key · = k) = bs.flatten.filter (key · = k)

namespace SortsBlocks

theorem nil : SortsBlocks key [] [] := ⟨by simp, fun _ => rfl⟩

theorem cons (hb : Sorts key b c) (h : SortsBlocks key bs cs) :
    SortsBlocks key (b :: bs) (c :: cs) := by
  refine ⟨List.forall_mem_cons.mpr ⟨hb.sorted, h.sorted⟩, fun k => ?_⟩
  simp only [List.flatten_cons, List.filter_append, hb.stable, h.stable]

theorem sorts (h : SortsBlocks key bs cs) (hc : Sorts key cs.flatten ys) :
    Sorts key bs.flatten ys :=
  ⟨hc.sorted, fun k => (hc.stable k).trans (h.stable k)⟩

end SortsBlocks

theorem sortsBlocks_byInsertion (h : Follows key before bs.flatten) :
    SortsBlocks key bs (bs.map (byInsertion before)) := by
  induction bs with
  | nil => exact .nil
  | cons b bs ih =>
    rw [List.flatten_cons] at h
    exact .cons (sorts_byInsertion (h.mono (List.subset_append_left _ _)))
      (ih (h.mono (List.subset_append_right _ _)))

theorem sortsBlocks_mergePairs (h : Follows key before bs.flatten)
    (hs : ∀ b ∈ bs, b.Pairwise (key · ≤ key ·)) :
    SortsBlocks key bs (mergePairs before bs) := by
  fun_induction mergePairs before bs with
  | case1 xs ys more ih =>
    obtain ⟨hxs, hs⟩ := List.forall_mem_cons.mp hs
    obtain ⟨hys, hs⟩ := List.forall_mem_cons.mp hs
    rw [List.flatten_cons, List.flatten_cons, ← List.append_assoc] at h
    have hmerge := sorts_merge (h.mono (List.subset_append_left _ _)) hxs hys
    obtain ⟨hsorted, hstable⟩ :=
      SortsBlocks.cons hmerge (ih (h.mono (List.subset_append_right _ _)) hs)
    refine ⟨hsorted, fun k => (hstable k).trans ?_⟩
    rw [List.flatten_cons, List.flatten_cons, List.flatten_cons, List.append_assoc]
  | case2 => exact ⟨hs, fun _ => rfl⟩

theorem sorts_mergeAll (h : Follows key before bs.flatten)
    (hs : ∀ b ∈ bs, b.Pairwise (key · ≤ key ·)) :
    Sorts key bs.flatten (mergeAll before bs) := by
  fun_induction mergeAll before bs with
  | case1 => exact .refl List.Pairwise.nil
  | case2 xs => simpa using Sorts.refl (hs xs List.mem_cons_self)
  | case3 xs ys more ih =>
    have hpairs := sortsBlocks_mergePairs h hs
    exact hpairs.sorts (ih (h.mono (flatten_mergePairs_perm before _).subset) hpairs.sorted)

/-- **Sorting by blocks sorts stably** wherever "comes before" is the order of keys. -/
theorem sorts_byBlocks (h : Follows key before xs) : Sorts key xs (byBlocks before xs) := by
  rw [← flatten_blocks 20 xs] at h
  have hblocks := sortsBlocks_byInsertion h
  have hmerged :=
    sorts_mergeAll (h.mono (flatten_map_byInsertion_perm before _).subset) hblocks.sorted
  have := hblocks.sorts hmerged
  rwa [flatten_blocks] at this

/-! ## Sorting by merging lists as a whole -/

theorem sorts_mergeSort (key : α → β) (xs : List α) :
    Sorts key xs (xs.mergeSort fun a b => decide (key a ≤ key b)) := by
  have htrans : ∀ a b c : α, decide (key a ≤ key b) = true → decide (key b ≤ key c) = true →
      decide (key a ≤ key c) = true := by
    simpa only [decide_eq_true_eq] using fun a b c => le_trans
  have htotal : ∀ a b : α, (decide (key a ≤ key b) || decide (key b ≤ key a)) = true := by
    simpa only [Bool.or_eq_true, decide_eq_true_eq] using fun a b => le_total (key a) (key b)
  refine ⟨by simpa using List.pairwise_mergeSort htrans htotal xs, fun k => ?_⟩
  have hclass : (xs.filter (key · = k)).Pairwise fun a b => decide (key a ≤ key b) = true := by
    refine List.pairwise_of_forall_mem_list fun a ha b hb => ?_
    have hak := of_decide_eq_true (List.mem_filter.mp ha).2
    have hbk := of_decide_eq_true (List.mem_filter.mp hb).2
    simp [hak, hbk]
  have hsub := (List.sublist_mergeSort htrans htotal hclass List.filter_sublist).filter (key · = k)
  simp only [List.filter_filter, Bool.and_self] at hsub
  refine (hsub.eq_of_length ?_).symm
  exact ((List.mergeSort_perm xs _).filter _).length_eq.symm

/-- Merging that asks only what comes before what sorts stably by the key. -/
theorem sorts_mergeSort_before (h : Follows key before xs) :
    Sorts key xs (xs.mergeSort fun a b => !before b a) := by
  have hle : ∀ a ∈ xs, ∀ b ∈ xs, (!before b a) = decide (key a ≤ key b) := by
    intro a ha b hb
    rw [Bool.eq_iff_iff, Bool.not_eq_true', ← Bool.not_eq_true, h b hb a ha,
      not_lt, decide_eq_true_eq]
  have heq := List.map_mergeSort (r := fun a b => !before b a)
    (s := fun a b => decide (key a ≤ key b)) (f := id) (l := xs) hle
  rw [List.map_id, List.map_id] at heq
  rw [heq]
  exact sorts_mergeSort key xs

end Stopwatch.Sorting
