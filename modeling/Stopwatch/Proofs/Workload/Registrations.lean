import Stopwatch.Proofs.Exposition.Labels
import Stopwatch.Proofs.Settings.Acceptance

/-!
# What a registry holds after any history of registrations

A history is a list of registrations, of any names and with or without a constructor. Some of them
fail and change nothing; `successes` are the others, in their order. The registry that is left
behind stands for these and nothing else: its entries are sorted by name, and the constructor of a
name is the one that was registered last (`Holds`). One registration keeps this (`Holds.register`),
so every history does (`Holds.after`). All that can be asked of a registry follows from it
(`registrations_kept`).
-/

namespace Stopwatch

/-- Builds a workload from options. -/
abbrev Constructor := WorkloadOptions → Workload

/-- A name that is to be registered, with its constructor if there is one. -/
structure Registration where
  name : Text
  build : Option Constructor

namespace Registry

/-! ## Histories -/

/-- The registry after a registration was tried: if it fails, the registry stays as it is. -/
def tried (r : Registry) (a : Registration) : Registry :=
  match r.register a.name a.build with
  | .ok r' => r'
  | .error _ => r

/-- The registry after a history. -/
def after (r : Registry) (history : List Registration) : Registry := history.foldl tried r

/-- The registrations of a history that succeed, in their order. -/
def successes (r : Registry) : List Registration → List (Text × Constructor)
  | [] => []
  | a :: history =>
    match r.register a.name a.build, a.build with
    | .ok r', some build => (a.name, build) :: successes r' history
    | _, _ => successes r history

variable {r r' : Registry} {options : WorkloadOptions} {name selection : Text} {a : Registration}
  {calls : List (Text × Constructor)}

/-! ## One registration -/

/-- A registration fails for a reserved name, and without a constructor. -/
theorem register_fails_iff :
    (∃ f, r.register a.name a.build = .error f) ↔ a.name = ∅ ∨ a.name = all ∨ a.build = none := by
  unfold register
  by_cases hname : (a.name.isEmpty || a.name == all) = true
  · rw [if_pos hname]
    have hreserved : a.name = ∅ ∨ a.name = all := by simpa [Text.isEmpty_iff] using hname
    constructor
    · intro _
      rcases hreserved with h | h
      · exact .inl h
      · exact .inr (.inl h)
    · intro _
      exact ⟨_, rfl⟩
  · rw [if_neg hname]
    obtain ⟨hempty, hall⟩ : ¬ a.name = ∅ ∧ ¬ a.name = all := by simpa [Text.isEmpty_iff] using hname
    cases a.build <;> simp [hempty, hall]

theorem register_eq_ok (h : r.register a.name a.build = .ok r') :
    a.name ≠ ∅ ∧ a.name ≠ all ∧
      ∃ build, a.build = some build ∧ r' = { r with entries := insert a.name build r.entries } := by
  have hok : ¬ (a.name = ∅ ∨ a.name = all ∨ a.build = none) := by
    rw [← register_fails_iff (r := r), h]
    simp
  obtain ⟨hempty, hall, hbuild⟩ : a.name ≠ ∅ ∧ a.name ≠ all ∧ a.build ≠ none := by simpa using hok
  obtain ⟨build, hsome⟩ := Option.ne_none_iff_exists'.mp hbuild
  unfold register at h
  rw [if_neg (by simp [Text.isEmpty_iff, hempty, hall]), hsome] at h
  exact ⟨hempty, hall, build, hsome, (Except.ok.inj h).symm⟩

theorem insert_eq_alter (name : Text) (build : Constructor) (entries : List (Text × Constructor)) :
    insert name build entries = Labelled.alter build (fun _ => build) name entries := by
  induction entries with
  | nil => rfl
  | cons e entries ih =>
    obtain ⟨n, b⟩ := e
    rw [insert, Labelled.alter, ih]
    by_cases h : n = name
    · simp [h]
    · simp [h]

/-! ## All registrations -/

/-- The registry stands for the calls that succeeded: each name has the constructor of its latest
call. -/
structure Holds (r : Registry) (options : WorkloadOptions)
    (calls : List (Text × Constructor)) : Prop where
  options : r.options = options
  sorted : Labelled.Sorted r.entries
  lookup : ∀ name, r.entries.lookup name = calls.reverse.lookup name
  not_reserved : ∀ call ∈ calls, call.1 ≠ ∅ ∧ call.1 ≠ all

theorem holds_empty (options : WorkloadOptions) : Holds (empty options) options [] :=
  ⟨rfl, .nil, fun _ => rfl, by simp⟩

theorem Holds.register (h : Holds r options calls) (hok : r.register a.name a.build = .ok r') :
    ∃ build, a.build = some build ∧ Holds r' options (calls ++ [(a.name, build)]) := by
  obtain ⟨hempty, hall, build, hbuild, rfl⟩ := register_eq_ok hok
  refine ⟨build, hbuild, h.options, ?_, ?_, ?_⟩
  · rw [insert_eq_alter]
    exact h.sorted.alter _ _ _
  · intro name
    rw [insert_eq_alter, Labelled.lookup_alter _ _ _ _ h.sorted,
      List.reverse_append, List.reverse_singleton, List.singleton_append,
      Labelled.lookup_cons, h.lookup]
  · intro call hcall
    rcases List.mem_append.mp hcall with hcall | hcall
    · exact h.not_reserved call hcall
    · rw [List.mem_singleton.mp hcall]
      exact ⟨hempty, hall⟩

theorem Holds.after (h : Holds r options calls) (history : List Registration) :
    Holds (r.after history) options (calls ++ r.successes history) := by
  induction history generalizing r calls with
  | nil => simpa [Registry.after, successes] using h
  | cons a history ih =>
    cases hreg : r.register a.name a.build with
    | ok r' =>
      obtain ⟨build, hbuild, h'⟩ := h.register hreg
      have hafter : r.after (a :: history) = r'.after history := by
        simp [Registry.after, tried, hreg]
      have hsuccesses : r.successes (a :: history) = (a.name, build) :: r'.successes history := by
        rw [successes, hreg, hbuild]
      rw [hafter, hsuccesses, List.append_cons]
      exact ih h'
    | error f =>
      have hafter : r.after (a :: history) = r.after history := by
        simp [Registry.after, tried, hreg]
      have hsuccesses : r.successes (a :: history) = r.successes history := by rw [successes, hreg]
      rw [hafter, hsuccesses]
      exact ih h

theorem holds_after_empty (options : WorkloadOptions) (history : List Registration) :
    Holds ((empty options).after history) options ((empty options).successes history) :=
  (holds_empty options).after history

/-! ## What can be asked -/

theorem get_eq (r : Registry) (name : Text) :
    r.get name = match r.entries.lookup name with
      | some build => .ok (build r.options)
      | none => .error (.wrapped ∅ .unknownWorkload (": " ++ name.quote)) := by
  unfold get
  generalize r.entries = entries
  induction entries with
  | nil => rfl
  | cons e entries ih =>
    obtain ⟨n, build⟩ := e
    by_cases hn : n = name
    · simp [hn]
    · simp only [Labelled.lookup_cons, List.find?_cons, beq_false_of_ne hn, if_neg (Ne.symm hn)]
      exact ih

theorem Holds.mem_list_iff (h : Holds r options calls) :
    name ∈ r.list ↔ ∃ build, (name, build) ∈ calls := by
  have hlist : name ∈ r.list ↔ ∃ build, (name, build) ∈ r.entries := by simp [list]
  have hcalls : (∃ build, (name, build) ∈ calls) ↔ ∃ build, (name, build) ∈ calls.reverse := by simp
  rw [hlist, hcalls, ← not_iff_not, not_exists, not_exists]
  rw [← Labelled.lookup_eq_none_iff, ← Labelled.lookup_eq_none_iff, h.lookup]

theorem Holds.pairwise_list (h : Holds r options calls) :
    r.list.Pairwise fun a b => a.bytes < b.bytes := by
  rw [list, List.pairwise_map]
  exact h.sorted.imp Text.before_iff.mp

theorem Holds.reserved_not_mem (h : Holds r options calls) : ∅ ∉ r.list ∧ all ∉ r.list := by
  simp only [h.mem_list_iff]
  constructor
  · rintro ⟨build, hmem⟩
    exact (h.not_reserved _ hmem).1 rfl
  · rintro ⟨build, hmem⟩
    exact (h.not_reserved _ hmem).2 rfl

theorem Holds.get_eq_ok (h : Holds r options calls) {build : Constructor}
    {earlier later : List (Text × Constructor)} (hcalls : calls = earlier ++ (name, build) :: later)
    (hlater : ∀ call ∈ later, call.1 ≠ name) :
    r.get name = .ok (build options) := by
  have hnone : later.reverse.lookup name = none := by
    rw [Labelled.lookup_eq_none_iff]
    intro b hb
    exact hlater _ (List.mem_reverse.mp hb) rfl
  have hlatest : calls.reverse.lookup name = some build := by
    rw [hcalls, List.reverse_append, List.reverse_cons, List.append_assoc,
      List.lookup_append, hnone, List.singleton_append, Labelled.lookup_cons, if_pos rfl]
    rfl
  rw [get_eq, h.lookup, hlatest, h.options]

theorem exists_unknown_iff (r : Registry) (name : Text) :
    (∃ f, r.get name = .error f ∧ f.any Fault.isUnknownWorkload = true) ↔ name ∉ r.list := by
  constructor
  · rintro ⟨f, herror, -⟩ hmem
    obtain ⟨w, hw⟩ := exists_get_of_mem hmem
    rw [hw] at herror
    cases herror
  · intro hmem
    have hnone : r.entries.lookup name = none := by
      rw [Labelled.lookup_eq_none_iff]
      intro build hbuild
      exact hmem (List.mem_map_of_mem hbuild)
    refine ⟨.wrapped ∅ .unknownWorkload (": " ++ name.quote), ?_, ?_⟩
    · rw [get_eq, hnone]
    · simp [Fault.any, Fault.isUnknownWorkload]

theorem select_eq_ok_iff {ws : List Workload} : r.select selection = .ok ws ↔
    List.Forall₂ (fun name w => r.get name = .ok w)
      (if selection == all then r.list else [selection]) ws :=
  mapError_eq_ok_iff.symm.trans toRun_eq_ok_iff

theorem exists_select_all (r : Registry) :
    ∃ ws, r.select all = .ok ws ∧ r.list.map r.get = ws.map .ok := by
  obtain ⟨ws, hws⟩ := exists_toRun (r := r) (.inl rfl)
  have hselect := mapError_eq_ok_iff.mp hws
  refine ⟨ws, hselect, ?_⟩
  have hbuilt := select_eq_ok_iff.mp hselect
  rw [if_pos (beq_self_eq_true all)] at hbuilt
  rw [← List.forall₂_eq_eq_eq, List.forall₂_map_left_iff, List.forall₂_map_right_iff]
  exact hbuilt

theorem exists_select_iff (hname : name ≠ all) :
    (∃ ws, r.select name = .ok ws) ↔ name ∈ r.list := by
  constructor
  · rintro ⟨ws, hws⟩
    have hbuilt := select_eq_ok_iff.mp hws
    rw [if_neg (by simpa using hname), List.forall₂_cons_left_iff] at hbuilt
    obtain ⟨w, -, hget, -⟩ := hbuilt
    obtain ⟨build, hb, -⟩ := exists_mem_of_get hget
    exact List.mem_map_of_mem hb
  · intro hmem
    obtain ⟨ws, hws⟩ := exists_toRun (.inr hmem)
    exact ⟨ws, mapError_eq_ok_iff.mp hws⟩

/-- **A registry holds exactly what was registered**, whatever the history: its names are listed in
increasing order, each name is built by the constructor that was registered last, a registration
that fails changes nothing, and a selection is one of the names or all of them. -/
theorem registrations_kept (options : WorkloadOptions) (history : List Registration) :
    let r := (empty options).after history
    let calls := (empty options).successes history
    (r.list.Pairwise fun a b => a.bytes < b.bytes) ∧
      (∀ name, name ∈ r.list ↔ ∃ build, (name, build) ∈ calls) ∧
      (∅ ∉ r.list ∧ all ∉ r.list) ∧
      (∀ name build earlier later, calls = earlier ++ (name, build) :: later →
          (∀ call ∈ later, call.1 ≠ name) →
        r.get name = .ok (build options)) ∧
      (∀ name, (∃ f, r.get name = .error f ∧ f.any Fault.isUnknownWorkload = true) ↔
        name ∉ r.list) ∧
      (∀ a : Registration, (∃ f, r.register a.name a.build = .error f) →
        (r.tried a).list = r.list ∧ ∀ name, (r.tried a).get name = r.get name) ∧
      (∃ ws, r.select all = .ok ws ∧ r.list.map r.get = ws.map .ok) ∧
      ∀ name, name ≠ all → ((∃ ws, r.select name = .ok ws) ↔ name ∈ r.list) := by
  intro r calls
  have h : Holds r options calls := holds_after_empty options history
  refine ⟨h.pairwise_list, fun name => h.mem_list_iff, h.reserved_not_mem, ?_,
    exists_unknown_iff r, ?_, exists_select_all r, ?_⟩
  · intro name build earlier later hcalls hlater
    exact h.get_eq_ok hcalls hlater
  · rintro a ⟨f, hfails⟩
    have htried : r.tried a = r := by rw [tried, hfails]
    rw [htried]
    exact ⟨rfl, fun _ => rfl⟩
  · intro name hname
    exact exists_select_iff hname

/-! ## The built-in workloads -/

/-- The registrations of the built-in workloads. -/
def builtinHistory : List Registration :=
  [ ⟨"prime-scan", some fun o => Workload.primeScan o.start o.printing⟩,
    ⟨"prime-count", some fun _ => Workload.primeCount⟩,
    ⟨"sieve", some fun _ => Workload.sieve⟩,
    ⟨"fibonacci", some fun _ => Workload.fibonacci⟩ ]

/-- A history on the built-in workloads is one on an empty registry. -/
theorem builtin_after (options : WorkloadOptions) (history : List Registration) :
    (builtin options).after history = (empty options).after (builtinHistory ++ history) := by
  unfold after
  rw [List.foldl_append]
  rfl

/-- On the built-in workloads three more registrations are tried: the word for all of them, a name
without a constructor, and one that replaces the sieve. -/
theorem registrations_kept_of_replaced_sieve :
    let history : List Registration :=
      [⟨"all", some fun _ => Workload.sieve⟩, ⟨"custom", none⟩,
        ⟨"sieve", some fun o => Workload.primeScan o.start false⟩]
    let r := (builtin { start := 7 }).after history
    r.list = ["fibonacci", "prime-count", "prime-scan", "sieve"] ∧
      r.get "sieve" = .ok (Workload.primeScan 7 false) ∧
      (∃ f, r.get "custom" = .error f ∧ f.any Fault.isUnknownWorkload = true) ∧
      ((∃ ws, r.select "custom" = .ok ws) ↔ Text.ofString "custom" ∈ r.list) := by
  intro history r
  obtain ⟨-, -, -, hget, hunknown, -, -, hselect⟩ :=
    registrations_kept { start := 7 } (builtinHistory ++ history)
  rw [← builtin_after] at hget hunknown hselect
  have hsieve := hget "sieve" (fun o => Workload.primeScan o.start false)
    ((empty { start := 7 }).successes builtinHistory) [] rfl (by simp)
  exact ⟨rfl, hsieve, (hunknown "custom").mpr (by decide), hselect "custom" (by decide)⟩

end Registry

end Stopwatch
