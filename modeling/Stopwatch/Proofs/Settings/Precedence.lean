import Mathlib.Tactic.SplitIfs
import Stopwatch.Proofs.Settings.Spelling
import Stopwatch.Settings.Environment

/-!
# Command line, environment, defaults

Where a setting's value comes from, in this order: the last flag of the setting on the command line,
whichever of its names was used; its variable, if that is not empty and can be read; its default.
`Resolved` says so about settings, and `precedence` says it of `combine`, for every command line
that is accepted.

That a short name counts as much as the long one is a fact about two tables, that of the flags and
that of the variables: they must agree on which names belong to a setting (`mem_flags_iff`).
-/

namespace Stopwatch.Settings

variable {s t : Settings} {k : Key} {v : Variable} {gs : List Given}
    {ws : List Written} {env : Environment}

theorem ext_get (h : ∀ k, s.get k = t.get k) : s = t := by
  obtain ⟨⟩ := s
  obtain ⟨⟩ := t
  simp only [mk.injEq]
  exact ⟨h .workload, h .runs, h .iterations, h .start, h .printPrimes, h .spread, h .unit,
    h .precision, h .timeout, h .quiet, h .verbose, h .noColor, h .dashboard, h .output,
    h .metricsAddress, h .metricsFile, h .verify,
    h .verifyLimit, h .verifyWorkers, h .pinCpu, h .gc, h .logLevel, h .theme, h .completion⟩

/-! ## Flags -/

/-- Flags of other settings do not count. -/
theorem get_assignAll_filter (h : s.get k = t.get k) (gs : List Given) :
    (s.assignAll gs).get k = (t.assignAll (gs.filter fun g => g.flag.key = k)).get k := by
  induction gs generalizing s t with
  | nil => exact h
  | cons g gs ih =>
    have hall : s.assignAll (g :: gs) = (s.assign g).assignAll gs := rfl
    rw [hall, List.filter_cons]
    split_ifs with hg
    · refine ih ?_
      obtain rfl : g.flag.key = k := by simpa using hg
      rw [assign, assign, get_set_self, get_set_self]
    · refine ih ?_
      rw [assign, get_set_of_ne s g.value (Ne.symm (by simpa using hg)), h]

/-- The last flag of a setting counts. -/
theorem get_assignAll_of_getLast? {g : Given}
    (h : (gs.filter fun x => x.flag.key = k).getLast? = some g) (s : Settings) :
    (s.assignAll gs).get g.flag.key = g.value := by
  obtain ⟨init, hinit⟩ := List.getLast?_eq_some_iff.mp h
  have hmem : g ∈ gs.filter fun x => x.flag.key = k := List.mem_of_getLast? h
  obtain rfl : g.flag.key = k := by simpa using (List.mem_filter.mp hmem).2
  have hall : s.assignAll (init ++ [g]) = (s.assignAll init).assign g := List.foldl_append
  rw [get_assignAll_filter rfl, hinit, hall]
  exact get_set_self _ _ _

/-! ## Variables -/

theorem keys_nodup : (Variable.all.map Variable.key).Nodup := by decide

/-- **The variables and the flags agree on the names of a setting.** -/
theorem mem_flags_iff : ∀ v ∈ Variable.all, ∀ f ∈ flags, f.name ∈ v.flags ↔
    f.key = v.key := by decide +kernel

theorem isOverruled_iff (hv : v ∈ Variable.all) (hgs : ∀ g ∈ gs, g.flag ∈ flags) :
    v.isOverruled gs = true ↔ gs.filter (fun g => g.flag.key = v.key) ≠ [] := by
  simp only [Variable.isOverruled, List.any_eq_true, beq_iff_eq, ne_eq,
    List.filter_eq_nil_iff, decide_eq_true_eq]
  push Not
  constructor
  · rintro ⟨name, hname, g, hg, rfl⟩
    exact ⟨g, hg, (mem_flags_iff v hv g.flag (hgs g hg)).mp hname⟩
  · rintro ⟨g, hg, hkey⟩
    exact ⟨g.flag.name, (mem_flags_iff v hv g.flag (hgs g hg)).mpr hkey, g, hg, rfl⟩

theorem get_takeVariable_self (env : Environment) (gs : List Given) (s : Settings) (v : Variable) :
    (takeVariable env gs s v).get v.key =
      if v.isOverruled gs then s.get v.key else (v.read? env).getD (s.get v.key) := by
  unfold takeVariable
  split_ifs
  · rfl
  · cases v.read? env with
    | none => rfl
    | some x => exact get_set_self s v.key x

theorem get_takeVariable_of_ne (h : v.key ≠ k) (s : Settings) :
    (takeVariable env gs s v).get k = s.get k := by
  unfold takeVariable
  split_ifs
  · rfl
  · cases v.read? env with
    | none => rfl
    | some x => exact get_set_of_ne s x h.symm

theorem get_foldl_takeVariable_of_ne {vs : List Variable} (h : ∀ v ∈ vs, v.key ≠ k) (s : Settings) :
    (vs.foldl (takeVariable env gs) s).get k = s.get k := by
  induction vs generalizing s with
  | nil => rfl
  | cons v vs ih =>
    obtain ⟨hv, hvs⟩ := List.forall_mem_cons.mp h
    rw [List.foldl_cons, ih hvs, get_takeVariable_of_ne hv]

/-- Each variable acts on its own setting as if it were the only one. -/
theorem get_foldl_takeVariable {vs : List Variable} (hn : (vs.map Variable.key).Nodup)
    (hv : v ∈ vs) (s : Settings) :
    (vs.foldl (takeVariable env gs) s).get v.key = (takeVariable env gs s v).get v.key := by
  induction vs generalizing s with
  | nil => simp at hv
  | cons u vs ih =>
    obtain ⟨hu, hn⟩ := List.nodup_cons.mp hn
    have hne : ∀ x ∈ vs, x.key ≠ u.key := fun x hx heq => hu (heq ▸ List.mem_map_of_mem hx)
    rw [List.foldl_cons]
    rcases List.mem_cons.mp hv with rfl | hv
    · exact get_foldl_takeVariable_of_ne hne _
    · rw [ih hn hv, get_takeVariable_self, get_takeVariable_self,
        get_takeVariable_of_ne (hne v hv).symm]

/-! ## Both -/

/-- A setting with a variable has the value of its flags or, if there are none, of its variable or
else its default. -/
theorem get_combine (hv : v ∈ Variable.all) (hgs : ∀ g ∈ gs, g.flag ∈ flags) :
    (combine gs env).get v.key =
      if gs.filter (fun g => g.flag.key = v.key) = [] then
        (v.read? env).getD (({} : Settings).get v.key)
      else (({} : Settings).assignAll (gs.filter fun g => g.flag.key = v.key)).get v.key := by
  have hflags := get_assignAll_filter (k := v.key) (rfl : ({} : Settings).get v.key = _) gs
  unfold combine
  rw [get_foldl_takeVariable keys_nodup hv, get_takeVariable_self, hflags]
  by_cases hnil : gs.filter (fun g => g.flag.key = v.key) = []
  · rw [if_pos hnil, if_neg (fun h => (isOverruled_iff hv hgs).mp h hnil), hnil]
    rfl
  · rw [if_neg hnil, if_pos ((isOverruled_iff hv hgs).mpr hnil)]

theorem get_combine_of_ne (h : ∀ v ∈ Variable.all, v.key ≠ k) :
    (combine gs env).get k =
      (({} : Settings).assignAll (gs.filter fun g => g.flag.key = k)).get k := by
  unfold combine
  rw [get_foldl_takeVariable_of_ne h, get_assignAll_filter rfl]

/-- The last flag of a setting counts, whether it has a variable or not. -/
theorem get_combine_of_getLast? {g : Given} (hgs : ∀ g ∈ gs, g.flag ∈ flags)
    (h : (gs.filter fun x => x.flag.key = k).getLast? = some g) :
    (combine gs env).get g.flag.key = g.value := by
  have hmem : g ∈ gs.filter fun x => x.flag.key = k := List.mem_of_getLast? h
  obtain rfl : g.flag.key = k := by simpa using (List.mem_filter.mp hmem).2
  rw [← get_assignAll_of_getLast? h {}, get_assignAll_filter rfl gs]
  by_cases hk : ∃ v ∈ Variable.all, v.key = g.flag.key
  · obtain ⟨v, hv, hkey⟩ := hk
    rw [← hkey] at hmem ⊢
    rw [get_combine hv hgs, if_neg (List.ne_nil_of_mem hmem)]
  · exact get_combine_of_ne fun v hv heq => hk ⟨v, hv, heq⟩

/-- A setting looks at no variable but its own. -/
theorem get_combine_congr (hgs : ∀ g ∈ gs, g.flag ∈ flags) {env' : Environment}
    (h : ∀ v ∈ Variable.all, v.key = k → v.text env' = v.text env) :
    (combine gs env').get k = (combine gs env).get k := by
  by_cases hk : ∃ v ∈ Variable.all, v.key = k
  · obtain ⟨v, hv, rfl⟩ := hk
    have hread : v.read? env' = v.read? env := by rw [Variable.read?, Variable.read?, h v hv rfl]
    rw [get_combine hv hgs, get_combine hv hgs, hread]
  · have hne : ∀ v ∈ Variable.all, v.key ≠ k := fun v hv heq => hk ⟨v, hv, heq⟩
    rw [get_combine_of_ne hne, get_combine_of_ne hne]

/-- The order of flags matters for each setting by itself only. -/
theorem combine_congr {gs' : List Given} (hgs : ∀ g ∈ gs, g.flag ∈ flags)
    (hgs' : ∀ g ∈ gs', g.flag ∈ flags)
    (h : ∀ k, gs'.filter (fun g => g.flag.key = k) = gs.filter fun g => g.flag.key = k) :
    combine gs' env = combine gs env := by
  refine ext_get fun k => ?_
  by_cases hk : ∃ v ∈ Variable.all, v.key = k
  · obtain ⟨v, hv, rfl⟩ := hk
    rw [get_combine hv hgs, get_combine hv hgs', h]
  · have hne : ∀ v ∈ Variable.all, v.key ≠ k := fun v hv heq => hk ⟨v, hv, heq⟩
    rw [get_combine_of_ne hne, get_combine_of_ne hne, h]

/-! ## From the written flags -/

theorem gives_iff {w : Written} {g : Given} :
    w.Gives g ↔ ∃ x, w.flag.key.kind.read w.value = .ok x ∧ g = ⟨w.flag, x⟩ := by
  unfold Written.Gives Flag.give
  cases w.flag.key.kind.read w.value with
  | error reason => simp
  | ok x => simp [eq_comm]

theorem flag_eq_of_gives {w : Written} {g : Given} (h : w.Gives g) : g.flag = w.flag := by
  obtain ⟨x, -, rfl⟩ := gives_iff.mp h
  rfl

theorem flag_mem_of_gives (hws : ∀ w ∈ ws, w.flag ∈ flags) (h : List.Forall₂ Written.Gives ws gs) :
    ∀ g ∈ gs, g.flag ∈ flags := by
  induction h with
  | nil => exact List.forall_mem_nil _
  | cons hgive _ ih =>
    obtain ⟨hw, hws⟩ := List.forall_mem_cons.mp hws
    exact List.forall_mem_cons.mpr ⟨flag_eq_of_gives hgive ▸ hw, ih hws⟩

/-- The written flags of a setting give its values. -/
theorem gives_filter (h : List.Forall₂ Written.Gives ws gs) (k : Key) :
    List.Forall₂ Written.Gives (ws.filter fun w => w.flag.key = k)
      (gs.filter fun g => g.flag.key = k) := by
  refine List.rel_filter ?_ h
  intro w g hgive
  simp only [flag_eq_of_gives hgive]

theorem gives_rightUnique : Relator.RightUnique Written.Gives := by
  intro w g g' h h'
  exact Except.ok.inj (h.symm.trans h')

theorem exists_gives (h : ∀ w ∈ ws, ∃ g, w.Gives g) : ∃ gs, List.Forall₂ Written.Gives ws gs := by
  induction ws with
  | nil => exact ⟨[], .nil⟩
  | cons w ws ih =>
    obtain ⟨hw, hws⟩ := List.forall_mem_cons.mp h
    obtain ⟨g, hg⟩ := hw
    obtain ⟨gs, hgs⟩ := ih hws
    exact ⟨g :: gs, .cons hg hgs⟩

theorem exists_given_of_mem (h : List.Forall₂ Written.Gives ws gs) : ∀ w ∈ ws, ∃ g, w.Gives g := by
  induction h with
  | nil => exact List.forall_mem_nil _
  | cons hgive _ ih => exact List.forall_mem_cons.mpr ⟨⟨_, hgive⟩, ih⟩

theorem getLast?_of_gives {w : Written} (h : List.Forall₂ Written.Gives ws gs)
    (hlast : ws.getLast? = some w) :
    ∃ g, gs.getLast? = some g ∧ w.Gives g := by
  induction h with
  | nil => simp at hlast
  | @cons u g ws gs hgive hrest ih =>
    cases hrest with
    | nil =>
      obtain rfl : u = w := by simpa using hlast
      exact ⟨g, rfl, hgive⟩
    | cons _ _ =>
      obtain ⟨g', hg', hgive'⟩ := ih (by simpa using hlast)
      exact ⟨g', by simpa using hg', hgive'⟩

/-- The settings follow from the written flags, the environment and the defaults, in this order. -/
structure Resolved (ws : List Written) (env : Environment) (s : Settings) : Prop where
  /-- A setting has the value of its last flag. -/
  flag : ∀ k w, (ws.filter fun x => x.flag.key = k).getLast? = some w →
    w.flag.key.kind.read w.value = .ok (s.get w.flag.key)
  /-- Without a flag it has the value of its variable, if that is not empty and can be read. -/
  environment : ∀ v ∈ Variable.all, (∀ w ∈ ws, w.flag.key ≠ v.key) → v.text env ≠ ∅ →
    ∀ x, v.key.kind.readVariable? (v.text env) = some x → s.get v.key = x
  /-- Otherwise it has its default. -/
  default : ∀ v ∈ Variable.all, (∀ w ∈ ws, w.flag.key ≠ v.key) →
    v.text env = ∅ ∨ v.key.kind.readVariable? (v.text env) = none →
      s.get v.key = ({} : Settings).get v.key

theorem filter_given_eq_nil (h : List.Forall₂ Written.Gives ws gs)
    (hws : ∀ w ∈ ws, w.flag.key ≠ k) :
    gs.filter (fun g => g.flag.key = k) = [] := by
  have hfilter := gives_filter h k
  rw [List.filter_eq_nil_iff.mpr (by simpa using hws)] at hfilter
  exact List.forall₂_nil_left_iff.mp hfilter

theorem resolved_combine (hflags : ∀ w ∈ ws, w.flag ∈ flags)
    (h : List.Forall₂ Written.Gives ws gs) :
    Resolved ws env (combine gs env) where
  flag k w hlast := by
    obtain ⟨g, hg, hgive⟩ := getLast?_of_gives (gives_filter h k) hlast
    obtain ⟨x, hx, rfl⟩ := gives_iff.mp hgive
    rw [hx]
    exact congrArg Except.ok (get_combine_of_getLast? (flag_mem_of_gives hflags h) hg).symm
  environment v hv hws htext x hx := by
    rw [get_combine hv (flag_mem_of_gives hflags h),
      if_pos (filter_given_eq_nil h hws), Variable.read?,
      if_neg (fun he => htext (Text.isEmpty_iff.mp he)), hx]
    rfl
  default v hv hws hnone := by
    rw [get_combine hv (flag_mem_of_gives hflags h),
      if_pos (filter_given_eq_nil h hws), Variable.read?]
    split_ifs with he
    · rfl
    · rw [hnone.resolve_left (fun hempty => he (Text.isEmpty_iff.mpr hempty))]
      rfl

/-- **The command line comes before the environment, and the environment before the defaults.** A
command line that is accepted consists of written flags, and the settings follow from them as
`Resolved` says. Moreover no setting looks at the variable of another, and flags of different
settings may be written in any order. -/
theorem precedence {args : List Text} {line : CommandLine}
    (hread : CommandLine.read args = .ok line) (hrest : line.rest = []) (env : Environment) :
    (∃ ws, Spells args ws) ∧ ∀ ws, Spells args ws →
      Resolved ws env (combine line.given env) ∧
      (∀ k env', (∀ v ∈ Variable.all, v.key = k → v.text env' = v.text env) →
        (combine line.given env').get k = (combine line.given env).get k) ∧
      ∀ args' ws', Spells args' ws' →
        (∀ k, (ws'.filter fun w => w.flag.key = k) = ws.filter fun w => w.flag.key = k) →
        ∃ line', CommandLine.read args' = .ok line' ∧ line'.rest = [] ∧
          combine line'.given env = combine line.given env := by
  refine ⟨exists_spells hread hrest, fun ws hws => ?_⟩
  obtain ⟨-, hgs⟩ := (read_eq_ok_iff_of_spells hws).mp hread
  have hflags := flag_mem_of_gives hws.flag_mem hgs
  refine ⟨resolved_combine hws.flag_mem hgs, fun k env' h => get_combine_congr hflags h, ?_⟩
  intro args' ws' hws' hfilter
  -- Every flag of the second command line is one of the first, so that its value can be read.
  have hmem : ∀ w ∈ ws', w ∈ ws := by
    intro w hw
    have hself : w ∈ ws'.filter fun x => x.flag.key = w.flag.key :=
      List.mem_filter.mpr ⟨hw, by simp⟩
    rw [hfilter] at hself
    exact (List.mem_filter.mp hself).1
  obtain ⟨gs', hgs'⟩ := exists_gives fun w hw => exists_given_of_mem hgs w (hmem w hw)
  refine ⟨⟨gs', []⟩, (read_eq_ok_iff_of_spells hws').mpr ⟨rfl, hgs'⟩, rfl, ?_⟩
  refine combine_congr hflags (flag_mem_of_gives hws'.flag_mem hgs') fun k => ?_
  have h := gives_filter hgs' k
  rw [hfilter] at h
  exact List.right_unique_forall₂' gives_rightUnique h (gives_filter hgs k)

/-- The short name of a flag counts as much as the long one before it, and its variable does not
count at all. A variable is used where there is no flag, and passed over where it cannot be read. -/
theorem precedence_of_short_name :
    let args : List Text := ["--runs=5", "-q", "-r", "0x7"]
    let env : Environment :=
      ⟨[("MICROBENCH_RUNS", "9"), ("MICROBENCH_UNIT", "s"), ("MICROBENCH_START", "first")]⟩
    ∃ line, CommandLine.read args = .ok line ∧ line.rest = [] ∧
      (combine line.given env).runs = 7 ∧ (combine line.given env).unit = "s" ∧
        (combine line.given env).start = 1 := by
  intro args env
  let long : Written := ⟨⟨"runs", .runs, "Number of timed runs"⟩, true, .joined "5"⟩
  let quiet : Written := ⟨⟨"q", .quiet, "Shorthand for --quiet"⟩, false, .alone⟩
  let short : Written := ⟨⟨"r", .runs, "Shorthand for --runs"⟩, false, .apart "0x7"⟩
  let line : CommandLine :=
    ⟨[⟨long.flag, (5 : Int64)⟩, ⟨quiet.flag, true⟩, ⟨short.flag, (7 : Int64)⟩], []⟩
  have hread : CommandLine.read args = .ok line := by rfl
  have hfind : ∀ f : Flag, flag? f.name = some f → f ∈ flags :=
    fun f h => (flag?_eq_some_iff.mp h).1
  have hlong : long.Fits := ⟨hfind _ rfl, trivial⟩
  have hquiet : quiet.Fits := ⟨hfind _ rfl, rfl⟩
  have hshort : short.Fits := ⟨hfind _ rfl, Kind.noConfusion⟩
  have hspells : Spells args [long, quiet, short] := .cons hlong (.cons hquiet (.cons hshort .nil))
  obtain ⟨hresolved, -, -⟩ := (precedence hread rfl env).2 _ hspells
  have hfree : ∀ k, k ≠ .runs → k ≠ .quiet → ∀ w ∈ [long, quiet, short], w.flag.key ≠ k := by
    intro k h1 h2
    simp only [List.forall_mem_cons]
    exact ⟨h1.symm, h2.symm, h1.symm, List.forall_mem_nil _⟩
  refine ⟨line, hread, rfl, ?_, ?_, ?_⟩
  · exact (Except.ok.inj (hresolved.flag .runs short rfl)).symm
  · exact hresolved.environment ⟨"UNIT", ["unit"], .unit⟩ (by simp [Variable.all])
      (hfree _ (by decide) (by decide)) (by decide) ("s" : Text) rfl
  · exact hresolved.default ⟨"START", ["start"], .start⟩ (by simp [Variable.all])
      (hfree _ (by decide) (by decide)) (.inr rfl)

end Stopwatch.Settings
