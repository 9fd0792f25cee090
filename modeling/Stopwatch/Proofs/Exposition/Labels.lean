import Mathlib.Tactic.SplitIfs
import Stopwatch.Exposition

/-!
# Values by name

A list of values by name is kept in the order of the names, which is the dictionary order of their
bytes (`before_iff`). Altering the value of one name puts it in its place if there is none yet
(`Sorted.alter`) and leaves all others alone (`lookup_alter`).
-/

namespace Stopwatch

/-! ## The order of names -/

namespace Text

theorem bytesLe_of_not_bytesLe {a b : List UInt8} (h : bytesLe a b = false) :
    bytesLe b a = true := by
  induction a generalizing b with
  | nil => simp [bytesLe] at h
  | cons x a ih =>
    cases b with
    | nil => rfl
    | cons y b =>
      simp only [bytesLe] at h ⊢
      grind

theorem bytesLe_trans {a b c : List UInt8} (hab : bytesLe a b = true) (hbc : bytesLe b c = true) :
    bytesLe a c = true := by
  induction a generalizing b c with
  | nil => rfl
  | cons x a ih =>
    cases b with
    | nil => simp [bytesLe] at hab
    | cons y b =>
      cases c with
      | nil => simp [bytesLe] at hbc
      | cons z c =>
        simp only [bytesLe] at hab hbc ⊢
        grind

theorem eq_of_bytesLe {a b : List UInt8} (hab : bytesLe a b = true)
    (hba : bytesLe b a = true) : a = b := by
  induction a generalizing b with
  | nil =>
    cases b with
    | nil => rfl
    | cons y b => simp [bytesLe] at hba
  | cons x a ih =>
    cases b with
    | nil => simp [bytesLe] at hab
    | cons y b =>
      simp only [bytesLe] at hab hba
      grind

/-- One name comes before another one. -/
def Before (a b : Text) : Prop := a.le b = true ∧ a ≠ b

theorem Before.trans {a b c : Text} (hab : a.Before b) (hbc : b.Before c) : a.Before c := by
  refine ⟨bytesLe_trans hab.1 hbc.1, ?_⟩
  rintro rfl
  exact hab.2 (congrArg Text.mk (eq_of_bytesLe hab.1 hbc.1))

theorem bytesLe_and_ne_iff {a b : List UInt8} : bytesLe a b = true ∧ a ≠ b ↔ a < b := by
  induction a generalizing b with
  | nil => cases b <;> simp [bytesLe]
  | cons x a ih =>
    cases b with
    | nil => simp [bytesLe]
    | cons y b =>
      rw [List.cons_lt_cons_iff, ← ih]
      simp only [bytesLe]
      grind

/-- The order of names is the dictionary order of their bytes. -/
theorem before_iff {a b : Text} : a.Before b ↔ a.bytes < b.bytes := by
  rw [← bytesLe_and_ne_iff]
  obtain ⟨a⟩ := a
  obtain ⟨b⟩ := b
  simp [Before, le]

end Text

/-! ## Series by name -/

namespace Labelled

variable {α : Type} {xs : Labelled α}

/-- The series stand in the order of their names, and there is one for each name. -/
def Sorted (xs : Labelled α) : Prop := xs.Pairwise fun p q => p.1.Before q.1

theorem lookup_cons (label name : Text) (a : α) (xs : Labelled α) :
    List.lookup name ((label, a) :: xs) = if name = label then some a else xs.lookup name := by
  by_cases h : name = label
  · simp [h]
  · simp [List.lookup_cons, h, beq_false_of_ne h]

theorem lookup_eq_none {name : Text} (h : ∀ p ∈ xs, name.Before p.1) : xs.lookup name = none := by
  induction xs with
  | nil => rfl
  | cons p xs ih =>
    obtain ⟨hp, hxs⟩ := List.forall_mem_cons.mp h
    rw [lookup_cons p.1 name p.2 xs, if_neg hp.2, ih hxs]

theorem lookup_eq_none_iff {name : Text} : xs.lookup name = none ↔ ∀ a, (name, a) ∉ xs := by
  rw [List.lookup_eq_none_iff]
  constructor
  · intro h a ha
    simpa using h _ ha
  · rintro h ⟨label, a⟩ ha
    have hne : name ≠ label := by
      rintro rfl
      exact h a ha
    simpa using hne

/-- The series of the name that is altered comes from the one that was there, and the others stay.
-/
theorem lookup_alter (fresh : α) (f : α → α) (name other : Text) (h : xs.Sorted) :
    (xs.alter fresh f name).lookup other =
      if other = name then some (f ((xs.lookup name).getD fresh)) else xs.lookup other := by
  induction xs with
  | nil =>
    rw [Labelled.alter, lookup_cons]
    rfl
  | cons p xs ih =>
    obtain ⟨hp, hxs⟩ := List.pairwise_cons.mp h
    obtain ⟨label, a⟩ := p
    rw [Labelled.alter]
    by_cases hl : label = name
    · subst hl
      simp only [beq_self_eq_true, if_true, lookup_cons, Option.getD_some]
      split_ifs <;> rfl
    · have hne : name ≠ label := Ne.symm hl
      simp only [beq_false_of_ne hl, Bool.false_eq_true, if_false]
      by_cases hle : label.le name = true
      · simp only [hle, if_true, lookup_cons, ih hxs, if_neg hne]
        by_cases ho : other = label
        · simp only [ho, if_true, if_neg hl]
        · simp only [ho, if_false]
      · -- The name comes before all that are there, so it is not among them.
        have hname : name.Before label :=
          ⟨Text.bytesLe_of_not_bytesLe (by simpa [Text.le] using hle), hne⟩
        have hnone : xs.lookup name = none := lookup_eq_none fun q hq => hname.trans (hp q hq)
        simp only [if_neg hle, lookup_cons, if_neg hne, hnone, Option.getD_none]

theorem mem_alter {fresh : α} {f : α → α} {name : Text} {p : Text × α}
    (h : p ∈ xs.alter fresh f name) :
    (p.1 = name ∧ (p.2 = f fresh ∨ ∃ a, (name, a) ∈ xs ∧ p.2 = f a)) ∨ p ∈ xs := by
  induction xs with
  | nil =>
    simp only [Labelled.alter, List.mem_singleton] at h
    subst h
    exact .inl ⟨rfl, .inl rfl⟩
  | cons q xs ih =>
    obtain ⟨label, a⟩ := q
    rw [Labelled.alter] at h
    split_ifs at h with hl hle
    · obtain rfl : label = name := by simpa using hl
      rcases List.mem_cons.mp h with rfl | h
      · exact .inl ⟨rfl, .inr ⟨a, List.mem_cons_self, rfl⟩⟩
      · exact .inr (List.mem_cons_of_mem _ h)
    · rcases List.mem_cons.mp h with rfl | h
      · exact .inr List.mem_cons_self
      · rcases ih h with ⟨hname, hp⟩ | hp
        · refine .inl ⟨hname, hp.imp_right ?_⟩
          rintro ⟨a, ha, heq⟩
          exact ⟨a, List.mem_cons_of_mem _ ha, heq⟩
        · exact .inr (List.mem_cons_of_mem _ hp)
    · rcases List.mem_cons.mp h with rfl | h
      · exact .inl ⟨rfl, .inl rfl⟩
      · exact .inr h

theorem Sorted.alter (fresh : α) (f : α → α) (name : Text) (h : xs.Sorted) :
    (xs.alter fresh f name).Sorted := by
  induction xs with
  | nil => exact List.pairwise_singleton _ _
  | cons p xs ih =>
    obtain ⟨hp, hxs⟩ := List.pairwise_cons.mp h
    obtain ⟨label, a⟩ := p
    rw [Labelled.alter]
    split_ifs with hl hle
    · exact List.pairwise_cons.mpr ⟨hp, hxs⟩
    · have hbefore : label.Before name := ⟨hle, by simpa using hl⟩
      refine List.pairwise_cons.mpr ⟨fun q hq => ?_, ih hxs⟩
      rcases mem_alter hq with ⟨hname, -⟩ | hq
      · show label.Before q.1
        rw [hname]
        exact hbefore
      · exact hp q hq
    · have hbefore : name.Before label :=
        ⟨Text.bytesLe_of_not_bytesLe (by simpa [Text.le] using hle), fun heq => hl (by simp [heq])⟩
      refine List.pairwise_cons.mpr ⟨fun q hq => ?_, List.pairwise_cons.mpr ⟨hp, hxs⟩⟩
      rcases List.mem_cons.mp hq with rfl | hq
      · exact hbefore
      · exact hbefore.trans (hp q hq)

end Labelled

end Stopwatch
