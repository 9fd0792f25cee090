import Mathlib.Data.List.Basic
import Stopwatch.Proofs.Text.Numerals

/-!
# Groups of three digits

Groups are written from the left, and whether a comma comes before one depends on how much has been
written. What comes out is a rule about what follows: digits with a comma wherever a multiple of
three of them is still to come (`groupedAfter_eq`). So the commas are told by the digits alone
(`cut_of_separated`), and taking them out gives the number back (`filter_separated`).
-/

namespace Stopwatch.Whole

variable {sign written ds xs ys pre post : List UInt8} {a b : UInt8} {t u : Text} {n : ℕ}

/-! ## The rule -/

/-- Digits with a comma after each one that a multiple of three digits follows. -/
def separated : List UInt8 → List UInt8
  | [] => []
  | d :: ds => if ds ≠ [] ∧ 3 ∣ ds.length then d :: comma :: separated ds else d :: separated ds

theorem separated_of_length_le (h : xs.length ≤ 3) : separated xs = xs := by
  induction xs with
  | nil => rfl
  | cons x xs ih =>
    rw [List.length_cons] at h
    rw [separated, if_neg, ih (by omega)]
    rintro ⟨hne, hdvd⟩
    have := List.length_pos_of_ne_nil hne
    omega

/-- A first group of at most three digits stands before a comma. -/
theorem separated_append (hne : xs ≠ []) (hlen : xs.length ≤ 3) (hys : ys ≠ [])
    (hdvd : 3 ∣ ys.length) :
    separated (xs ++ ys) = xs ++ comma :: separated ys := by
  induction xs with
  | nil => exact absurd rfl hne
  | cons x xs ih =>
    rw [List.length_cons] at hlen
    rw [List.cons_append, separated, List.length_append]
    by_cases hxs : xs = []
    · rw [hxs, if_pos ⟨hys, by simpa using hdvd⟩]
      rfl
    · have := List.length_pos_of_ne_nil hxs
      rw [if_neg fun h => absurd h.2 (by omega), ih hxs (by omega)]
      rfl

/-- A group of three digits stands before a comma if there are more. -/
theorem separated_group (a b c : UInt8) (hdvd : 3 ∣ ds.length) :
    separated (a :: b :: c :: ds) =
      [a, b, c] ++ if ds ≠ [] then comma :: separated ds else separated ds := by
  split
  · next hne =>
    rw [← separated_append (List.cons_ne_nil _ _) (by simp) hne hdvd]
    rfl
  · next hnil =>
    obtain rfl : ds = [] := not_not.mp hnil
    exact separated_of_length_le (by simp)

/-! ## Writing groups -/

/-- As long as more than the sign has been written, each group follows a comma. -/
theorem writeGroups_eq (hsign : n ≤ written.length) (hdvd : 3 ∣ ds.length) :
    writeGroups n written ds =
      written ++ if n < written.length ∧ ds ≠ [] then comma :: separated ds else separated ds := by
  fun_induction writeGroups n written ds with
  | case1 written a b c rest written' ih =>
    have hrest : 3 ∣ rest.length := by
      rw [List.length_cons, List.length_cons, List.length_cons] at hdvd
      omega
    have hwritten : written' = if n < written.length then written ++ [comma] else written := rfl
    have hmore : n < (written' ++ [a, b, c]).length := by
      rw [hwritten, List.length_append]
      split <;> simp <;> omega
    rw [ih hmore.le hrest, separated_group a b c hrest, hwritten]
    simp only [← hwritten, hmore, true_and]
    by_cases hn : n < written.length <;> simp [hwritten, hn]
  | case2 ds written hshort =>
    -- Fewer than three digits are a multiple of three only if there are none.
    obtain rfl : ds = [] := by
      match ds, hdvd with
      | [], _ => rfl
      | [_], h => simp at h
      | [_, _], h => simp at h
      | a :: b :: c :: rest, _ => exact (hshort a b c rest rfl).elim
    simp [separated]

/-- **Groups that are written from the left follow the rule.** -/
theorem groupedAfter_eq (sign ds : List UInt8) : groupedAfter sign ds = sign ++ separated ds := by
  unfold groupedAfter
  split
  · next h => rw [separated_of_length_le h]
  · next h =>
    have hlen : (ds.drop (ds.length % 3)).length = ds.length - ds.length % 3 := List.length_drop
    have hne : ds.drop (ds.length % 3) ≠ [] := List.ne_nil_of_length_pos (by omega)
    have htake : (ds.take (ds.length % 3)).length = ds.length % 3 :=
      List.length_take_of_le (by omega)
    have hdvd : 3 ∣ (ds.drop (ds.length % 3)).length := by omega
    rw [writeGroups_eq (by simp) hdvd, List.append_assoc]
    congr 1
    by_cases hhead : ds.take (ds.length % 3) = []
    · have hdrop : ds.drop (ds.length % 3) = ds := by
        rw [hhead] at htake
        rw [← htake]
        rfl
      simp [hhead, hdrop]
    · have := List.length_pos_of_ne_nil hhead
      rw [if_pos ⟨by simp; omega, hne⟩, ← separated_append hhead (by omega) hne hdvd,
        List.take_append_drop]

theorem bytes_grouped_minus (ds : List UInt8) :
    (grouped ⟨minus :: ds⟩).bytes = minus :: separated ds :=
  groupedAfter_eq [minus] ds

theorem bytes_grouped (h : ds.head? ≠ some minus) : (grouped ⟨ds⟩).bytes = separated ds := by
  cases ds with
  | nil => rfl
  | cons d ds =>
    have hne : ¬ (d == minus) = true := by simpa using h
    rw [grouped]
    dsimp only
    rw [if_neg hne]
    exact groupedAfter_eq [] (d :: ds)

/-! ## What the commas tell -/

theorem filter_separated (h : comma ∉ ds) : (separated ds).filter (· != comma) = ds := by
  induction ds with
  | nil => rfl
  | cons d ds ih =>
    obtain ⟨hd, hds⟩ : comma ≠ d ∧ comma ∉ ds := by simpa using h
    have hkept : (d != comma) = true := by simpa using Ne.symm hd
    rw [separated]
    split <;> simp [hkept, ih hds]

theorem head?_separated (ds : List UInt8) : (separated ds).head? = ds.head? := by
  cases ds with
  | nil => rfl
  | cons d ds =>
    rw [separated]
    split <;> rfl

theorem separated_eq_nil_iff : separated ds = [] ↔ ds = [] := by
  rw [← List.head?_eq_none_iff, head?_separated, List.head?_eq_none_iff]

/-- How digits with commas are cut in two: before or behind a comma, where a multiple of three
digits follows, or between two digits, where it does not. -/
inductive Cut (ds : List UInt8) : List UInt8 → List UInt8 → Prop where
  | beforeComma {pre ys : List UInt8} {d : UInt8} (hd : d ∈ ds)
      (hlast : pre.getLast? = some d) (hys : ys <:+ ds) (hne : ys ≠ []) (hdvd : 3 ∣ ys.length) :
      Cut ds pre (comma :: separated ys)
  | behindComma {pre ys : List UInt8} (hlast : pre.getLast? = some comma)
      (hys : ys <:+ ds) (hne : ys ≠ []) :
      Cut ds pre (separated ys)
  | betweenDigits {pre ys : List UInt8} {d : UInt8} (hd : d ∈ ds)
      (hlast : pre.getLast? = some d) (hys : ys <:+ ds) (hdvd : ¬ 3 ∣ ys.length) :
      Cut ds pre (separated ys)

theorem getLast?_append_of_eq_some (h : pre.getLast? = some a) (front : List UInt8) :
    (front ++ pre).getLast? = some a := by
  rw [List.getLast?_append, h, Option.some_or]

theorem Cut.append_front (h : Cut ds pre post) (front : List UInt8) :
    Cut ds (front ++ pre) post := by
  cases h with
  | beforeComma hd hlast hys hne hdvd =>
    exact .beforeComma hd (getLast?_append_of_eq_some hlast front) hys hne hdvd
  | behindComma hlast hys hne => exact .behindComma (getLast?_append_of_eq_some hlast front) hys hne
  | betweenDigits hd hlast hys hdvd =>
    exact .betweenDigits hd (getLast?_append_of_eq_some hlast front) hys hdvd

theorem Cut.cons (h : Cut ds pre post) (d : UInt8) : Cut (d :: ds) pre post := by
  have hsuffix : ds <:+ d :: ds := List.suffix_cons d ds
  cases h with
  | beforeComma hd hlast hys hne hdvd =>
    exact .beforeComma (List.mem_cons_of_mem d hd) hlast (hys.trans hsuffix) hne hdvd
  | behindComma hlast hys hne => exact .behindComma hlast (hys.trans hsuffix) hne
  | betweenDigits hd hlast hys hdvd =>
    exact .betweenDigits (List.mem_cons_of_mem d hd) hlast (hys.trans hsuffix) hdvd

/-- **The commas are told by the digits that follow**, wherever digits with commas are cut in two.
-/
theorem cut_of_separated (h : separated ds = pre ++ post) (hpre : pre ≠ []) (hpost : post ≠ []) :
    Cut ds pre post := by
  induction ds generalizing pre with
  | nil => exact absurd (List.append_eq_nil_iff.mp h.symm).1 hpre
  | cons d ds ih =>
    obtain ⟨p, pre, rfl⟩ := List.exists_cons_of_ne_nil hpre
    have hsuffix : ds <:+ d :: ds := List.suffix_cons d ds
    rw [separated, List.cons_append] at h
    split at h
    · next hcomma =>
      obtain ⟨rfl, hrest⟩ := List.cons.inj h
      cases pre with
      | nil =>
        rw [List.nil_append] at hrest
        rw [← hrest]
        exact .beforeComma List.mem_cons_self rfl hsuffix hcomma.1 hcomma.2
      | cons q pre =>
        rw [List.cons_append] at hrest
        obtain ⟨rfl, htail⟩ := List.cons.inj hrest
        by_cases hfront : pre = []
        · rw [hfront, List.nil_append] at htail
          rw [hfront, ← htail]
          exact .behindComma rfl hsuffix hcomma.1
        · exact ((ih htail hfront).cons d).append_front [d, comma]
    · next hcomma =>
      obtain ⟨rfl, hrest⟩ := List.cons.inj h
      by_cases hfront : pre = []
      · rw [hfront, List.nil_append] at hrest
        have hne : ds ≠ [] := mt separated_eq_nil_iff.mpr (hrest ▸ hpost)
        rw [hfront, ← hrest]
        exact .betweenDigits List.mem_cons_self rfl hsuffix fun hdvd => hcomma ⟨hne, hdvd⟩
      · exact ((ih hrest hfront).cons d).append_front [d]

/-! ## Numerals -/

/-- Decimal digits, perhaps after a minus sign. -/
def Numeral (t : Text) : Prop :=
  ∃ sign ds, t.bytes = sign ++ ds ∧ (sign = [] ∨ sign = [minus]) ∧ ∀ d ∈ ds, isDigit d = true

theorem comma_not_mem (h : ∀ d ∈ ds, isDigit d = true) : comma ∉ ds := fun hmem =>
  absurd (h comma hmem) (by decide)

theorem bytes_grouped_of_numeral (hbytes : t.bytes = sign ++ ds)
    (hsign : sign = [] ∨ sign = [minus]) (hds : ∀ d ∈ ds, isDigit d = true) :
    (grouped t).bytes = sign ++ separated ds := by
  obtain ⟨bytes⟩ := t
  obtain rfl : bytes = sign ++ ds := hbytes
  rcases hsign with rfl | rfl
  · refine bytes_grouped fun h => ?_
    exact absurd (hds minus (List.mem_of_head? h)) (by decide)
  · exact bytes_grouped_minus ds

theorem filter_grouped (h : Numeral t) : (grouped t).bytes.filter (· != comma) = t.bytes := by
  obtain ⟨sign, ds, hbytes, hsign, hds⟩ := h
  have hkept : sign.filter (· != comma) = sign := by rcases hsign with rfl | rfl <;> rfl
  rw [bytes_grouped_of_numeral hbytes hsign hds, hbytes, List.filter_append, hkept,
    filter_separated (comma_not_mem hds)]

/-- **Two numerals do not look alike with commas.** -/
theorem eq_of_grouped_eq (ht : Numeral t) (hu : Numeral u) (h : grouped t = grouped u) : t = u := by
  obtain ⟨bytes⟩ := t
  obtain ⟨others⟩ := u
  have hbytes := filter_grouped ht
  rw [h, filter_grouped hu] at hbytes
  exact congrArg Text.mk hbytes.symm

theorem countP_separated (h : ∀ d ∈ ds, isDigit d = true) :
    (separated ds).countP isDigit = ds.length := by
  have hcomma : isDigit comma = false := by decide
  induction ds with
  | nil => rfl
  | cons d ds ih =>
    obtain ⟨hd, hds⟩ := List.forall_mem_cons.mp h
    rw [separated]
    split <;> simp [hd, hcomma, ih hds]

theorem mem_of_head?_separated (h : (separated ds).head? = some a) : a ∈ ds :=
  List.mem_of_head? ((head?_separated ds).symm.trans h)

/-- Behind a sign, digits with commas are cut in two as they are without it. -/
theorem cut_of_sign (hsign : sign = [] ∨ sign = [minus])
    (h : sign ++ separated ds = pre ++ post) (hpost : post ≠ []) :
    pre = [] ∨ pre = sign ∧ post = separated ds ∨ Cut ds pre post := by
  by_cases hpre : pre = []
  · exact .inl hpre
  · rcases hsign with rfl | rfl
    · exact .inr (.inr (cut_of_separated h hpre hpost))
    · obtain ⟨p, pre, rfl⟩ := List.exists_cons_of_ne_nil hpre
      obtain ⟨rfl, hrest⟩ := List.cons.inj h
      by_cases hfront : pre = []
      · rw [hfront] at hrest ⊢
        exact .inr (.inl ⟨rfl, hrest.symm⟩)
      · exact .inr (.inr ((cut_of_separated hrest hfront hpost).append_front [minus]))

/-- **Every comma stands between two digits, and a multiple of three digits follows it.** -/
theorem of_comma (hsign : sign = [] ∨ sign = [minus]) (hds : ∀ d ∈ ds, isDigit d = true)
    (h : sign ++ separated ds = pre ++ comma :: post) :
    (∃ d, pre.getLast? = some d ∧ isDigit d = true) ∧
        (∃ d, post.head? = some d ∧ isDigit d = true) ∧
      3 ∣ post.countP isDigit := by
  have hfirst : ∀ {ys}, ys <:+ ds → separated ys ≠ comma :: post := by
    intro ys hys hcomma
    exact comma_not_mem hds (hys.mem (mem_of_head?_separated (hcomma ▸ rfl)))
  rcases cut_of_sign hsign h (by simp) with rfl | ⟨-, hall⟩ | hcut
  · rcases hsign with rfl | rfl
    · exact absurd h (hfirst List.suffix_rfl)
    · exact absurd (List.cons.inj h).1 (by decide)
  · exact absurd hall.symm (hfirst List.suffix_rfl)
  · generalize hrest : comma :: post = rest at hcut
    cases hcut with
    | @beforeComma ys d hd hlast hys hne hdvd =>
      obtain rfl : post = separated ys := (List.cons.inj hrest).2
      obtain ⟨y, ys, rfl⟩ := List.exists_cons_of_ne_nil hne
      have hdigits : ∀ d ∈ y :: ys, isDigit d = true := fun d hd => hds d (hys.mem hd)
      rw [countP_separated hdigits, head?_separated]
      exact ⟨⟨d, hlast, hds d hd⟩, ⟨y, rfl, hdigits y List.mem_cons_self⟩, hdvd⟩
    | behindComma hlast hys hne => exact absurd hrest.symm (hfirst hys)
    | betweenDigits hd hlast hys hdvd => exact absurd hrest.symm (hfirst hys)

/-- **Where two digits stand side by side, no multiple of three digits follows.** -/
theorem of_neighbours (hsign : sign = [] ∨ sign = [minus]) (hds : ∀ d ∈ ds, isDigit d = true)
    (h : sign ++ separated ds = pre ++ a :: b :: post) (ha : isDigit a = true)
    (hb : isDigit b = true) :
    ¬ 3 ∣ (b :: post).countP isDigit := by
  have hne : a ≠ comma ∧ a ≠ minus ∧ b ≠ comma :=
    ⟨ne_of_isDigit ha (by decide), ne_of_isDigit ha (by decide), ne_of_isDigit hb (by decide)⟩
  have hlast : (pre ++ [a]).getLast? = some a := List.getLast?_concat
  rw [List.append_cons] at h
  generalize pre ++ [a] = front at h hlast
  rcases cut_of_sign hsign h (by simp) with rfl | ⟨rfl, -⟩ | hcut
  · cases hlast
  · rcases hsign with rfl | rfl
    · cases hlast
    · exact absurd (Option.some.inj hlast).symm hne.2.1
  · generalize hrest : b :: post = rest at hcut
    cases hcut with
    | beforeComma => exact absurd (List.cons.inj hrest).1 hne.2.2
    | behindComma hcomma => exact absurd (Option.some.inj (hlast.symm.trans hcomma)) hne.1
    | @betweenDigits ys d hd hdigit hys hdvd =>
      rw [countP_separated fun d hd => hds d (hys.mem hd)]
      exact hdvd

/-- **Grouping digits loses nothing, and the commas stand in regular places**: between digits that a
multiple of three digits follows, and in all such places. So no two numbers look alike. -/
theorem grouped_regular (ht : Numeral t) :
    (grouped t).bytes.filter (· != comma) = t.bytes ∧
      (∀ pre post, (grouped t).bytes = pre ++ comma :: post →
        (∃ d, pre.getLast? = some d ∧ isDigit d = true) ∧
            (∃ d, post.head? = some d ∧ isDigit d = true) ∧
          3 ∣ post.countP isDigit) ∧
      (∀ pre a b post, (grouped t).bytes = pre ++ a :: b :: post →
          isDigit a = true → isDigit b = true →
        ¬ 3 ∣ (b :: post).countP isDigit) ∧
      ∀ u, Numeral u → grouped t = grouped u → t = u := by
  have hlossless := filter_grouped ht
  have hinjective : ∀ u, Numeral u → grouped t = grouped u → t = u :=
    fun u hu => eq_of_grouped_eq ht hu
  obtain ⟨sign, ds, hbytes, hsign, hds⟩ := ht
  have hgrouped := bytes_grouped_of_numeral hbytes hsign hds
  refine ⟨hlossless, ?_, ?_, hinjective⟩
  · intro pre post h
    exact of_comma hsign hds (hgrouped.symm.trans h)
  · intro pre a b post h
    exact of_neighbours hsign hds (hgrouped.symm.trans h)

/-- A million below zero. -/
theorem grouped_regular_of_negative_million :
    Numeral "-1000000" ∧ grouped "-1000000" = "-1,000,000" ∧
      (grouped "-1000000").bytes.filter (· != comma) = ("-1000000" : Text).bytes := by
  have hdigits : ("1000000" : Text).bytes.all isDigit = true := by decide
  have hnumeral : Numeral "-1000000" :=
    ⟨[minus], ("1000000" : Text).bytes, by decide, .inr rfl, List.all_eq_true.mp hdigits⟩
  exact ⟨hnumeral, by decide, (grouped_regular hnumeral).1⟩

end Stopwatch.Whole
