import Mathlib.Data.List.Forall2
import Mathlib.Tactic.Choose
import Mathlib.Tactic.MkIffOfInductiveProp
import Stopwatch.Settings.Validation

/-!
# What an accepted invocation satisfies

The checks of settings come one after the other, and together they are the conditions of `Accepted`
(`check_eq_ok_iff`). Settings that an invocation is given have passed them, unless a completion
script is asked for (`accepted_of_load`).

A registry resolves every selection that is accepted against its own names (`exists_toRun`), and the
workloads are those of the selected names (`toRun_eq_ok_iff`).
-/

namespace Stopwatch

/-! ## Steps that may fail -/

section

variable {ε α β : Type}

theorem bind_eq_ok_iff {x : Except ε α} {f : α → Except ε β} {b : β} :
    (x >>= f) = .ok b ↔ ∃ a, x = .ok a ∧ f a = .ok b := by
  cases x with
  | error e => simp [bind, Except.bind]
  | ok a => simp [bind, Except.bind]

theorem mapError_eq_ok_iff {δ : Type} {x : Except ε α} {f : ε → δ} {a : α} :
    x.mapError f = .ok a ↔ x = .ok a := by
  cases x <;> simp [Except.mapError]

theorem forM_eq_ok_iff {f : α → Except ε Unit} {l : List α} :
    l.forM f = .ok () ↔ ∀ a ∈ l, f a = .ok () := by
  induction l with
  | nil => simp [pure, Except.pure]
  | cons a l ih =>
    rw [List.forM_eq_forM, List.forM_cons, bind_eq_ok_iff, List.forall_mem_cons, ← ih]
    exact ⟨fun ⟨_, ha, hl⟩ => ⟨ha, hl⟩, fun ⟨ha, hl⟩ => ⟨_, ha, hl⟩⟩

theorem mapM_eq_ok_iff {f : α → Except ε β} {l : List α} {m : List β} :
    l.mapM f = .ok m ↔ List.Forall₂ (fun a b => f a = .ok b) l m := by
  induction l generalizing m with
  | nil => simp [pure, Except.pure, eq_comm]
  | cons a l ih =>
    rw [List.mapM_cons, bind_eq_ok_iff, List.forall₂_cons_left_iff]
    simp only [bind_eq_ok_iff, ih, pure, Except.pure, Except.ok.injEq]
    constructor
    · rintro ⟨b, hb, m, hm, rfl⟩
      exact ⟨b, m, hb, hm, rfl⟩
    · rintro ⟨b, m, hb, hm, rfl⟩
      exact ⟨b, hb, m, hm, rfl⟩

theorem exists_of_mem_right {R : α → β → Prop} {l : List α} {m : List β}
    (h : List.Forall₂ R l m) {b : β} (hb : b ∈ m) : ∃ a ∈ l, R a b := by
  induction h with
  | nil => simp at hb
  | cons hR _ ih =>
    rcases List.mem_cons.mp hb with rfl | hb
    · exact ⟨_, List.mem_cons_self, hR⟩
    · obtain ⟨a, ha, hR⟩ := ih hb
      exact ⟨a, List.mem_cons_of_mem _ ha, hR⟩

end

/-! ## Selected workloads -/

namespace Registry

variable {r : Registry} {name selection : Text} {w : Workload} {ws : List Workload}

theorem exists_get_of_mem (h : name ∈ r.list) : ∃ w, r.get name = .ok w := by
  unfold get
  cases hfind : r.entries.find? fun e => e.1 == name with
  | some e => exact ⟨e.2 r.options, rfl⟩
  | none =>
    obtain ⟨e, he, rfl⟩ := List.mem_map.mp h
    exact absurd (beq_self_eq_true e.1) (List.find?_eq_none.mp hfind e he)

theorem exists_mem_of_get (h : r.get name = .ok w) : ∃ build, (name, build) ∈ r.entries ∧
    build r.options = w := by
  unfold get at h
  split at h
  · next e build hfind =>
    obtain rfl : e = name := by simpa using List.find?_some hfind
    exact ⟨build, List.mem_of_find?_eq_some hfind, Except.ok.inj h⟩
  · cases h

/-- The workloads of a selection are built from the names that it stands for, in their order. -/
theorem toRun_eq_ok_iff : r.toRun selection = .ok ws ↔
    List.Forall₂ (fun name w => r.get name = .ok w)
      (if selection == all then r.list else [selection]) ws := by
  unfold toRun select
  rw [mapError_eq_ok_iff]
  split_ifs
  · exact mapM_eq_ok_iff
  · rw [List.forall₂_cons_left_iff]
    cases hget : r.get selection with
    | error e => simp [Except.map]
    | ok w => simp [Except.map, eq_comm]

theorem exists_toRun (h : selection = all ∨ selection ∈ r.list) :
    ∃ ws, r.toRun selection = .ok ws := by
  have hnames : ∀ name ∈ (if selection == all then r.list else [selection]), ∃ w,
      r.get name = .ok w := by
    intro name hname
    refine exists_get_of_mem ?_
    split_ifs at hname with hall
    · exact hname
    · rw [List.mem_singleton.mp hname]
      exact h.resolve_left fun heq => hall (beq_iff_eq.mpr heq)
  choose! build hbuild using hnames
  exact ⟨_, toRun_eq_ok_iff.mpr (List.forall₂_map_right_iff.mpr (List.forall₂_same.mpr hbuild))⟩

theorem exists_get_of_mem_toRun (h : r.toRun selection = .ok ws) (hw : w ∈ ws) :
    ∃ name ∈ if selection == all then r.list else [selection], r.get name = .ok w :=
  exists_of_mem_right (toRun_eq_ok_iff.mp h) hw

end Registry

/-! ## Accepted settings -/

namespace Settings

variable {s : Settings} {workloads : List Text}

/-- The conditions on the settings of a session. -/
@[mk_iff] structure Accepted (s : Settings) (workloads : List Text) : Prop where
  runs : 1 ≤ s.runs
  workload : s.workload = Registry.all ∨ s.workload ∈ workloads
  /-- A number of iterations that is given keeps the limits of the selected workloads that are built
  in. -/
  iterations : s.iterations ≠ 0 → s.iterations ≤ Workload.maxIterations ∧
    ∀ name ∈ s.selected workloads, ∀ w, (Registry.builtin { start := s.start }).get name = .ok w →
      s.iterations ≤ w.limit
  unit : ∃ u, TimeUnit.parse? s.unit = some u
  precision : -1 ≤ s.precision ∧ s.precision ≤ maxPrecision
  timeout : 0 < s.timeout.toInt
  quiet_verbose : (s.quiet && s.verbose) = false
  quiet_dashboard : (s.quiet && s.dashboard) = false
  printPrimes_dashboard : (s.printPrimes && s.dashboard) = false
  pinCpu : -1 ≤ s.pinCpu
  verifyLimit : s.verify = false ∨ 2 ≤ s.verifyLimit
  gc : ∃ mode, GcMode.parse s.gc = .ok mode
  theme : s.theme ∈ Theme.names
  logLevel : s.logLevel.lower ∈ levelWords

theorem require_eq_ok_iff {ok : Bool} {message : Text} {u : Unit} :
    require ok message = .ok u ↔ ok = true := by
  cases ok <;> simp [require]

theorem checkIterations_eq_ok_iff {u : Unit} : s.checkIterations workloads = .ok u ↔
    (s.iterations ≠ 0 → s.iterations ≤ Workload.maxIterations ∧
      ∀ name ∈ s.selected workloads, ∀ w, (Registry.builtin { start := s.start }).get name = .ok w →
        s.iterations ≤ w.limit) := by
  unfold checkIterations
  split_ifs with hzero hmax
  · simp [beq_iff_eq.mp hzero]
  · have hne : s.iterations ≠ 0 := fun h => hzero (beq_iff_eq.mpr h)
    exact iff_of_false (by simp) fun h => absurd hmax (UInt64.not_lt.mpr (h hne).1)
  · rw [forM_eq_ok_iff]
    have hne : s.iterations ≠ 0 := fun h => hzero (beq_iff_eq.mpr h)
    constructor
    · intro h _
      refine ⟨UInt64.not_lt.mp hmax, fun name hname w hw => ?_⟩
      have hname := h name hname
      rw [hw] at hname
      simpa using require_eq_ok_iff.mp hname
    · intro h name hname
      cases hget : (Registry.builtin { start := s.start }).get name with
      | error e => rfl
      | ok w => exact require_eq_ok_iff.mpr (decide_eq_true ((h hne).2 name hname w hget))

theorem check_eq_ok_iff (hcompletion : s.completion = ∅) :
    s.check workloads = .ok () ↔ s.Accepted workloads := by
  have hempty : (!s.completion.isEmpty) = false := by rw [hcompletion]; rfl
  unfold check
  rw [hempty]
  simp only [Bool.false_eq_true, if_false, bind_eq_ok_iff, require_eq_ok_iff,
    mapError_eq_ok_iff, exists_const, exists_and_right, checkIterations_eq_ok_iff, accepted_iff,
    decide_eq_true_eq, Bool.or_eq_true, Bool.and_eq_true,
    beq_iff_eq, List.contains_iff_mem, Option.isSome_iff_exists, Bool.not_eq_true']

/-! ## Loading -/

variable {fill : Settings → Settings} {program : Text} {args : List Text} {env : Environment}

theorem loadWith_eq_ok_iff :
    loadWith fill program args env workloads = .ok s ↔
        ∃ line, CommandLine.read args = .ok line ∧ line.rest = [] ∧
      fill (combine line.given env) = s ∧ s.check workloads = .ok () := by
  unfold loadWith
  cases hread : CommandLine.read args with
  | error e => simp
  | ok line =>
    simp only [Except.ok.injEq, exists_eq_left', Bool.not_eq_true', List.isEmpty_eq_false_iff]
    split_ifs with hrest
    · simp [hrest]
    · simp only [not_not.mp hrest, true_and]
      constructor
      · intro h
        cases hcheck : (fill (combine line.given env)).check workloads with
        | error f => simp [hcheck] at h
        | ok u =>
          obtain rfl : fill (combine line.given env) = s := by simpa [hcheck] using h
          exact ⟨rfl, hcheck⟩
      · rintro ⟨rfl, hcheck⟩
        rw [hcheck]

theorem load_eq_ok_iff :
    load program args env workloads = .ok s ↔ ∃ line, CommandLine.read args = .ok line ∧
        line.rest = [] ∧
      combine line.given env = s ∧ s.check workloads = .ok () := by
  simp only [load, loadWith_eq_ok_iff, id]

/-- What is filled in makes no difference to whether settings are had, as long as it makes none to
the checks. -/
theorem loadWith_eq_map_load (h : ∀ s, (fill s).check workloads = s.check workloads) :
    loadWith fill program args env workloads = (load program args env workloads).map fill := by
  unfold load loadWith
  cases CommandLine.read args with
  | error e => rfl
  | ok line =>
    dsimp only [id]
    rw [h]
    split
    · rfl
    · cases (combine line.given env).check workloads <;> rfl

/-- **An invocation that is not for a completion script gets settings that satisfy every
condition.** -/
theorem accepted_of_load
    (hload : load program args env workloads = .ok s) (hcompletion : s.completion = ∅) :
    s.Accepted workloads := by
  obtain ⟨line, -, -, -, hcheck⟩ := load_eq_ok_iff.mp hload
  exact (check_eq_ok_iff hcompletion).mp hcheck

end Settings

end Stopwatch
