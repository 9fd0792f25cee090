import Stopwatch.Program
import Stopwatch.Proofs.Settings.Acceptance
import Stopwatch.Proofs.Settings.Precedence
import Stopwatch.Proofs.Text.Numerals

/-!
# One text, given as a flag and as a variable

Flags and variables do not read all values alike: a flag's number may have a base mark and
underscores, a variable's is a plain decimal, and their words for on and off differ. A text that
both accept nevertheless stands for the same value (`flag_eq_variable_iff`), with one exception: a
leading zero marks an octal number in a flag and means nothing in a variable.
-/

namespace Stopwatch.Settings

open Whole (LooksOctal splitSign)

variable {s s' : Settings} {v : Variable} {ws ws' : List Written} {w : Written} {t : Text}

/-- True of the kinds whose values are whole numbers. -/
def Kind.isNumber : Kind → Bool
  | .int | .word => true
  | _ => false

theorem toOption_eq_some_iff {ε α : Type} {r : Except ε α} {x : α} :
    r.toOption = some x ↔ r = .ok x := by
  cases r <;> simp [Except.toOption]

/-- The two sets of words for on and off do not contradict each other. -/
theorem switch_eq {x y : Bool} (hflag : Kind.read .switch t = .ok x)
    (hvariable : Kind.readVariable? .switch t = some y) :
    x = y := by
  have hon : ∀ t ∈ onWords, Kind.readVariable? .switch t ≠ some false := by decide +kernel
  have hoff : ∀ t ∈ offWords, Kind.readVariable? .switch t ≠ some true := by decide +kernel
  simp only [Kind.read] at hflag
  split_ifs at hflag with h1 h2
  · obtain rfl := Except.ok.inj hflag
    cases y with
    | true => rfl
    | false => exact absurd hvariable (hon t (List.contains_iff_mem.mp h1))
  · obtain rfl := Except.ok.inj hflag
    cases y with
    | true => exact absurd hvariable (hoff t (List.contains_iff_mem.mp h2))
    | false => rfl

/-- **What is read in two ways is the same, unless it is a number that looks octal.** -/
theorem read_eq_readVariable_iff (k : Kind) {x y : k.Value} (hflag : k.read t = .ok x)
    (hvariable : k.readVariable? t = some y) :
    x = y ↔ ¬ (k.isNumber = true ∧ LooksOctal (splitSign t.bytes).2) := by
  cases k with
  | switch => exact iff_of_true (switch_eq hflag hvariable) (by simp [Kind.isNumber])
  | text =>
    have heq : x = y := (Except.ok.inj hflag).symm.trans (Option.some.inj hvariable)
    exact iff_of_true heq (by simp [Kind.isNumber])
  | int =>
    rw [Whole.readMarkedInt64_eq_iff (toOption_eq_some_iff.mp hvariable) hflag]
    simp [Kind.isNumber]
  | word =>
    rw [Whole.readMarkedUInt64_eq_iff (toOption_eq_some_iff.mp hvariable) hflag]
    simp [Kind.isNumber]
  | duration =>
    have hread : Duration.read? t = some y := hvariable
    have heq : x = y := by simpa [Kind.read, hread, eq_comm] using hflag
    exact iff_of_true heq (by simp [Kind.isNumber])

/-! ## The settings of two invocations -/

theorem resolved_of_load {program : Text} {args workloads : List Text} {env : Environment}
    (hargs : Spells args ws) (hload : load program args env workloads = .ok s) :
    Resolved ws env s := by
  obtain ⟨line, hread, -, rfl, -⟩ := load_eq_ok_iff.mp hload
  exact resolved_combine hargs.flag_mem ((read_eq_ok_iff_of_spells hargs).mp hread).2

theorem read?_eq_some_iff {env : Environment} {y : v.key.Value} :
    v.read? env = some y ↔ v.text env ≠ ∅ ∧ v.key.kind.readVariable? (v.text env) = some y := by
  unfold Variable.read?
  split_ifs with h
  · simp [Text.isEmpty_iff.mp h]
  · have hne : v.text env ≠ ∅ := fun he => h (Text.isEmpty_iff.mpr he)
    simp [hne]

/-- The number of workers is filled in before the checks, and none of them looks at it: an
invocation has the same settings, or the same refusal, as without a host. -/
theorem loadWith_fill (host : Host) (program : Text) (args : List Text) (env : Environment)
    (workloads : List Text) :
    loadWith (Invocation.fill host) program args env workloads =
      (load program args env workloads).map (Invocation.fill host) :=
  loadWith_eq_map_load fun _ => rfl

/-- Numbers of workers that are both above zero or both left to the host. -/
theorem workersFor_eq_iff (h : 0 < s.verifyWorkers ↔ 0 < s'.verifyWorkers) (host : Host) :
    Invocation.workersFor s host = Invocation.workersFor s' host ↔
      (0 < s'.verifyWorkers → s.verifyWorkers = s'.verifyWorkers) := by
  unfold Invocation.workersFor
  by_cases hpos : 0 < s'.verifyWorkers
  · rw [if_pos hpos, if_pos (h.mpr hpos), Int64.toInt_inj]
    simp [hpos]
  · rw [if_neg hpos, if_neg fun hs => hpos (h.mp hs)]
    simp [hpos]

/-- **A text means the same as the value of a flag and of the flag's variable**, if both accept it,
unless it is a number that looks octal: its last flag gives a setting one value, and its variable,
without such a flag, gives it another exactly then. For the number of workers it makes a difference
only if it is above zero, since otherwise it is left to the host. -/
theorem flag_eq_variable_iff {program program' : Text} {args args' workloads workloads' : List Text}
    {env env' : Environment} (hv : v ∈ Variable.all) {y : v.key.Value}
    (hargs : Spells args ws) (hflag : (ws.filter fun x => x.flag.key = v.key).getLast? = some w)
    (hargs' : Spells args' ws') (hfree : ∀ x ∈ ws', x.flag.key ≠ v.key)
    (htext : v.text env' = w.value) (hvariable : v.read? env' = some y)
    (hload : load program args env workloads = .ok s)
    (hload' : load program' args' env' workloads' = .ok s') :
    (s.get v.key = s'.get v.key ↔
      ¬ (v.key.kind.isNumber = true ∧ LooksOctal (splitSign w.value.bytes).2)) ∧
    (v.key = .verifyWorkers → ∀ host, Invocation.workersFor s host = Invocation.workersFor s' host ↔
      ¬ (LooksOctal (splitSign w.value.bytes).2 ∧ 0 < s'.verifyWorkers)) := by
  have hkey : w.flag.key = v.key := by
    simpa using (List.mem_filter.mp (List.mem_of_getLast? hflag)).2
  have hread := (resolved_of_load hargs hload).flag v.key w hflag
  rw [hkey] at hread
  obtain ⟨hne, hy⟩ := read?_eq_some_iff.mp hvariable
  have hget := (resolved_of_load hargs' hload').environment v hv hfree hne y hy
  rw [htext, ← hget] at hy
  have hiff := read_eq_readVariable_iff v.key.kind hread hy
  refine ⟨hiff, fun hworkers host => ?_⟩
  rw [hworkers] at hread hy hiff
  have hpos : 0 < s.verifyWorkers ↔ 0 < s'.verifyWorkers :=
    Whole.readMarkedInt64_pos_iff (toOption_eq_some_iff.mp hy) hread
  have hequal : s.verifyWorkers = s'.verifyWorkers ↔ ¬ LooksOctal (splitSign w.value.bytes).2 :=
    hiff.trans (not_congr (and_iff_right rfl))
  rw [workersFor_eq_iff hpos, hequal, not_and]
  exact imp_not_comm

/-- Leading zeros before a single digit, and a sign, make no difference. -/
theorem flag_eq_variable_of_single_digit :
    ∃ s s', load "microbench" ["--start=+007"] ⟨[]⟩ ["prime-scan"] = .ok s ∧
      load "microbench" [] ⟨[("MICROBENCH_START", "+007")]⟩ ["prime-scan"] = .ok s' ∧
        s.start = s'.start := by
  let w : Written :=
    ⟨⟨"start", .start, "Initial counter value of the prime scan"⟩, true, .joined "+007"⟩
  have hw : w.Fits := ⟨(flag?_eq_some_iff.mp (rfl : flag? w.flag.name = some w.flag)).1, trivial⟩
  have hspells : Spells ["--start=+007"] [w] := .cons hw .nil
  have hload : load "microbench" ["--start=+007"] ⟨[]⟩ ["prime-scan"] = .ok { start := 7 } := rfl
  have hload' : load "microbench" [] ⟨[("MICROBENCH_START", "+007")]⟩ ["prime-scan"] =
    .ok { start := 7 } := rfl
  have h := flag_eq_variable_iff (v := ⟨"START", ["start"], .start⟩) (w := w)
    (by simp [Variable.all]) hspells rfl .nil (List.forall_mem_nil _) rfl rfl hload hload'
  exact ⟨_, _, hload, hload', h.1.mpr (by decide)⟩

/-- A number that looks octal is one number as a flag and another as a variable. -/
theorem flag_ne_variable_of_octal :
    ∃ s s', load "microbench" ["--runs=012"] ⟨[]⟩ ["prime-scan"] = .ok s ∧
      load "microbench" [] ⟨[("MICROBENCH_RUNS", "012")]⟩ ["prime-scan"] = .ok s' ∧
        s.runs = 10 ∧ s'.runs = 12 :=
  ⟨{ runs := 10 }, { runs := 12 }, rfl, rfl, rfl, rfl⟩

end Stopwatch.Settings
