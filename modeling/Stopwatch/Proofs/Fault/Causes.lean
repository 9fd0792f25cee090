import Mathlib.Data.List.Perm.Basic
import Mathlib.Tactic.SplitIfs
import Stopwatch.Fault

/-!
# Causes and exit codes

A fault is a tree, and its exit code tells of the gravest cause that occurs anywhere in it
(`exitCode_of_causes`). It depends on which leaves the tree has, and on nothing else
(`exitCode_congr`): not on what they are wrapped in, nor on the order in which faults were joined,
at whatever depth (`Similar`).
-/

namespace Stopwatch.Fault

/-! ## The tree -/

/-- True of a fault that has no others in it. -/
def IsLeaf : Fault → Prop
  | benchmark .. => False
  | wrapped .. => False
  | joined _ => False
  | _ => True

/-- Induction over the tree, in which all leaves are one case. -/
@[elab_as_elim]
theorem recLeaf {motive : Fault → Prop} (leaf : ∀ f, f.IsLeaf → motive f)
    (benchmark : ∀ workload cause, motive cause → motive (benchmark workload cause))
    (wrapped : ∀ before cause after, motive cause → motive (wrapped before cause after))
    (joined : ∀ members, (∀ f ∈ members, motive f) → motive (joined members)) : ∀ f, motive f
  | .benchmark workload cause =>
    benchmark workload cause (recLeaf leaf benchmark wrapped joined cause)
  | .wrapped before cause after =>
    wrapped before cause after (recLeaf leaf benchmark wrapped joined cause)
  | .joined members => joined members fun f _ => recLeaf leaf benchmark wrapped joined f
  | .plain _ => leaf _ trivial
  | .config _ => leaf _ trivial
  | .causeless _ => leaf _ trivial
  | .timeout .. => leaf _ trivial
  | .validation .. => leaf _ trivial
  | .mismatch _ => leaf _ trivial
  | .canceled => leaf _ trivial
  | .deadline => leaf _ trivial
  | .help => leaf _ trivial
  | .unknownWorkload => leaf _ trivial

/-- A fault stands somewhere in the tree of another. -/
inductive Occurs (f : Fault) : Fault → Prop
  | root : Occurs f f
  | benchmark {cause : Fault} (workload : Text) : Occurs f cause →
      Occurs f (.benchmark workload cause)
  | wrapped {cause : Fault} (before after : Text) : Occurs f cause →
      Occurs f (.wrapped before cause after)
  | joined {member : Fault} {members : List Fault} :
    member ∈ members → Occurs f member → Occurs f (.joined members)

variable {f g cause : Fault} {members : List Fault}

theorem occurs_leaf_iff (h : g.IsLeaf) : Occurs f g ↔ f = g := by
  constructor
  · rintro (_ | _ | _ | _) <;> first | rfl | exact h.elim
  · rintro rfl
    exact .root

theorem occurs_benchmark_iff (workload : Text) :
    Occurs f (benchmark workload cause) ↔ f = benchmark workload cause ∨ Occurs f cause := by
  constructor
  · rintro (_ | ⟨_, hf⟩ | _ | _)
    · exact .inl rfl
    · exact .inr hf
  · rintro (rfl | hf)
    · exact .root
    · exact hf.benchmark workload

theorem occurs_wrapped_iff (before after : Text) :
    Occurs f (wrapped before cause after) ↔ f = wrapped before cause after ∨ Occurs f cause := by
  constructor
  · rintro (_ | _ | ⟨_, _, hf⟩ | _)
    · exact .inl rfl
    · exact .inr hf
  · rintro (rfl | hf)
    · exact .root
    · exact hf.wrapped before after

theorem occurs_joined_iff : Occurs f (joined members) ↔ f = joined members ∨
    ∃ member ∈ members, Occurs f member := by
  constructor
  · rintro (_ | _ | _ | ⟨hmem, hf⟩)
    · exact .inl rfl
    · exact .inr ⟨_, hmem, hf⟩
  · rintro (rfl | ⟨_, hmem, hf⟩)
    · exact .root
    · exact .joined hmem hf

/-! ## Searching the tree -/

variable {p : Fault → Bool}

theorem anyOf_eq_true_iff : anyOf p members = true ↔ ∃ f ∈ members, f.any p = true := by
  induction members with
  | nil => simp [anyOf]
  | cons f fs ih => simp [anyOf, ih]

theorem any_leaf (h : f.IsLeaf) : f.any p = p f := by
  cases f <;> first | exact h.elim | simp [any]

/-- **A search through the tree finds exactly what occurs in it.** -/
theorem any_eq_true_iff (f : Fault) : f.any p = true ↔ ∃ g, Occurs g f ∧ p g = true := by
  induction f using recLeaf with
  | leaf f hf => simp only [any_leaf hf, occurs_leaf_iff hf, exists_eq_left]
  | benchmark workload cause ih =>
    simp only [any, Bool.or_eq_true, ih, occurs_benchmark_iff, or_and_right,
      exists_or, exists_eq_left]
  | wrapped before cause after ih =>
    simp only [any, Bool.or_eq_true, ih, occurs_wrapped_iff, or_and_right,
      exists_or, exists_eq_left]
  | joined members ih =>
    simp only [any, Bool.or_eq_true, anyOf_eq_true_iff, occurs_joined_iff, or_and_right,
      exists_or, exists_eq_left]
    refine or_congr_right ?_
    constructor
    · rintro ⟨member, hmem, hany⟩
      obtain ⟨g, hg, hp⟩ := (ih member hmem).mp hany
      exact ⟨g, ⟨member, hmem, hg⟩, hp⟩
    · rintro ⟨g, ⟨member, hmem, hg⟩, hp⟩
      exact ⟨member, hmem, (ih member hmem).mpr ⟨g, hg, hp⟩⟩

theorem isDeadline_iff : g.isDeadline = true ↔ g = deadline := by
  cases g <;> simp [isDeadline]

theorem isCanceled_iff : g.isCanceled = true ↔ g = canceled := by
  cases g <;> simp [isCanceled]

theorem isMismatch_iff : g.isMismatch = true ↔ ∃ m, g = mismatch m := by
  cases g <;> simp [isMismatch]

theorem isConfig_iff : g.isConfig = true ↔ ∃ message, g = config message := by
  cases g <;> simp [isConfig]

theorem isValidation_iff : g.isValidation = true ↔
    ∃ field message, g = validation field message := by
  cases g <;> simp [isValidation]

/-! ## The exit code -/

open Classical in
/-- Of the causes that occur, the gravest has its exit code. -/
theorem exitCode_eq (f : Fault) :
    f.exitCode =
      if Occurs deadline f then ExitCode.timedOut
      else if Occurs canceled f then ExitCode.canceled
      else if ∃ m, Occurs (mismatch m) f then ExitCode.mismatch
      else if (∃ message, Occurs (config message) f) ∨
          ∃ field message, Occurs (validation field message) f then
        ExitCode.config
      else ExitCode.failure := by
  have hdeadline : f.any isDeadline = true ↔ Occurs deadline f := by
    simp only [any_eq_true_iff, isDeadline_iff, exists_eq_right]
  have hcanceled : f.any isCanceled = true ↔ Occurs canceled f := by
    simp only [any_eq_true_iff, isCanceled_iff, exists_eq_right]
  have hmismatch : f.any isMismatch = true ↔ ∃ m, Occurs (mismatch m) f := by
    simp only [any_eq_true_iff, isMismatch_iff]
    exact ⟨fun ⟨_, h, m, hm⟩ => ⟨m, hm ▸ h⟩, fun ⟨m, h⟩ => ⟨_, h, m, rfl⟩⟩
  have hconfig : f.any isConfig = true ↔ ∃ message, Occurs (config message) f := by
    simp only [any_eq_true_iff, isConfig_iff]
    exact ⟨fun ⟨_, h, m, hm⟩ => ⟨m, hm ▸ h⟩, fun ⟨m, h⟩ => ⟨_, h, m, rfl⟩⟩
  have hvalidation : f.any isValidation = true ↔
      ∃ field message, Occurs (validation field message) f := by
    simp only [any_eq_true_iff, isValidation_iff]
    exact ⟨fun ⟨_, h, w, m, hm⟩ => ⟨w, m, hm ▸ h⟩, fun ⟨w, m, h⟩ => ⟨_, h, w, m, rfl⟩⟩
  simp only [exitCode, Bool.or_eq_true, hdeadline, hcanceled, hmismatch, hconfig, hvalidation]

/-- The exit code depends on nothing but the leaves of the tree. -/
theorem exitCode_congr (h : ∀ c : Fault, c.IsLeaf → (Occurs c f ↔ Occurs c g)) :
    f.exitCode = g.exitCode := by
  have hmismatch : (∃ m, Occurs (mismatch m) f) ↔ ∃ m, Occurs (mismatch m) g :=
    exists_congr fun _ => h _ trivial
  have hconfig : (∃ message, Occurs (config message) f) ↔ ∃ message, Occurs (config message) g :=
    exists_congr fun _ => h _ trivial
  have hvalidation : (∃ field message, Occurs (validation field message) f) ↔
      ∃ field message, Occurs (validation field message) g := exists₂_congr fun _ _ => h _ trivial
  classical
  simp only [exitCode_eq, h deadline trivial, h canceled trivial, hmismatch, hconfig, hvalidation]

theorem exitCode_ne_success (f : Fault) : f.exitCode ≠ ExitCode.success := by
  unfold exitCode
  split_ifs <;> decide

/-- Faults that differ in what their causes are wrapped in and in the order in which faults were
joined, and in nothing else. -/
inductive Similar : Fault → Fault → Prop
  | refl (f : Fault) : Similar f f
  | symm {f g : Fault} : Similar f g → Similar g f
  | trans {f g h : Fault} : Similar f g → Similar g h → Similar f h
  | benchmark (workload : Text) (cause : Fault) : Similar (benchmark workload cause) cause
  | wrapped (before : Text) (cause : Fault) (after : Text) : Similar
      (wrapped before cause after) cause
  | reorder {members members' : List Fault} : members.Perm members' →
      Similar (joined members) (joined members')
  /-- One of several joined faults is exchanged for a similar one. -/
  | member {f g : Fault} (before after : List Fault) :
    Similar f g → Similar (joined (before ++ f :: after)) (joined (before ++ g :: after))

/-- Similar faults have the same leaves. -/
theorem Similar.occurs_iff (h : Similar f g) {c : Fault} (hc : c.IsLeaf) :
    Occurs c f ↔ Occurs c g := by
  have hjoined : ∀ members, Occurs c (joined members) ↔ ∃ member ∈ members, Occurs c member := by
    intro members
    rw [occurs_joined_iff, or_iff_right]
    rintro rfl
    exact hc
  induction h with
  | refl => rfl
  | symm _ ih => exact ih.symm
  | trans _ _ ih ih' => exact ih.trans ih'
  | benchmark workload cause =>
    rw [occurs_benchmark_iff, or_iff_right]
    rintro rfl
    exact hc
  | wrapped before cause after =>
    rw [occurs_wrapped_iff, or_iff_right]
    rintro rfl
    exact hc
  | reorder hperm => simp only [hjoined, hperm.mem_iff]
  | member before after _ ih =>
    simp only [hjoined, List.mem_append, List.mem_cons, or_and_right, exists_or, exists_eq_left, ih]

theorem Similar.exitCode_eq (h : Similar f g) : f.exitCode = g.exitCode :=
  exitCode_congr fun _ => h.occurs_iff

/-- A workload's name does not matter for the exit code. -/
theorem exitCode_benchmark (name : Text) (cause : Fault) :
    (benchmark name cause).exitCode = cause.exitCode :=
  (Similar.benchmark name cause).exitCode_eq

open Classical in
/-- **The exit code of a fault tells of the gravest cause in its tree**: of a deadline before a
cancellation, of that before a disagreement, and of that before a fault in the settings or in a
request. It is never that of success, it stays when causes are wrapped in other words or names and
when joined faults change places, at whatever depth, and it is the one that goes with the answer to
the user. -/
theorem exitCode_of_causes (f : Fault) :
    (f.exitCode =
      if Occurs deadline f then ExitCode.timedOut
      else if Occurs canceled f then ExitCode.canceled
      else if ∃ m, Occurs (mismatch m) f then ExitCode.mismatch
      else if (∃ message, Occurs (config message) f) ∨
          ∃ field message, Occurs (validation field message) f then
        ExitCode.config
      else ExitCode.failure) ∧
    f.exitCode ≠ ExitCode.success ∧
    (∀ g, Similar f g → g.exitCode = f.exitCode) ∧
    ∀ theme spent, (handle theme spent (some f)).2 = f.exitCode :=
  ⟨exitCode_eq f, exitCode_ne_success f, fun _ h => h.exitCode_eq.symm,
    fun theme spent => handle_snd theme spent _⟩

/-- A cancellation deep in the tree counts more than a disagreement beside the root, and still does
when the two change places and the cancellation loses its wrapping. -/
theorem exitCode_of_deep_cancellation :
    let disagreement : Fault := mismatch ⟨25, true, false, "trial-division"⟩
    let deep : Fault := joined [disagreement, inContext "timing" (benchmark "sieve" canceled)]
    let flat : Fault := joined [canceled, disagreement]
    deep.exitCode = ExitCode.canceled ∧ Similar deep flat ∧ flat.exitCode = ExitCode.canceled := by
  intro disagreement deep flat
  have hbare : Similar (inContext "timing" (benchmark "sieve" canceled)) canceled :=
    .trans (.wrapped _ _ _) (.benchmark _ _)
  have hsimilar : Similar deep flat :=
    .trans (.member [disagreement] [] hbare) (.reorder (.swap _ _ _))
  have hdeep : deep.exitCode = ExitCode.canceled := by decide
  obtain ⟨-, -, hkept, -⟩ := exitCode_of_causes deep
  exact ⟨hdeep, hsimilar, (hkept flat hsimilar).trans hdeep⟩

end Stopwatch.Fault
