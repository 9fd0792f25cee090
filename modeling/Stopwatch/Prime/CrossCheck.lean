import Stopwatch.Fault
import Stopwatch.Prime
import Stopwatch.Prime.Probable

/-!
# Cross-checking the predicate

A range is cut into chunks, and in each chunk the predicate is compared with two references, number
by number. A chunk is checked by a task of its own, and a limited number of tasks go on side by
side. The first fault that a task comes to is noted, and the check is called off: tasks that begin
after that compare nothing.

`CrossCheck` is the state of all this, and `CrossCheck.step` says what happens when it is the `Turn`
of the one who hands out the chunks, or of a task. A list of turns is a schedule, and the answer may
depend on it. `check` lets everybody go on in turn.

Every turn in which something happens leaves less to do (`left_step_task`, `left_step_hand`), so
this ends.
-/

namespace Stopwatch

namespace Prime

/-- The name of the second reference. -/
def oracleName : Text := "math/big"

/-! ## Chunks -/

/-- How many numbers a chunk holds at most. -/
def chunkSize : Int64 := 4096

/-- Consecutive numbers. -/
structure Chunk where
  first : Int64
  last : Int64
deriving DecidableEq, Inhabited

/-- The last number of the chunk that begins with `first`, in a range that ends with `hi`. A sum
that wraps is below `first`. -/
def chunkEnd (hi first : Int64) : Int64 :=
  let last := first + chunkSize - 1
  if hi < last || last < first then hi else last

/-- A chunk that does not reach the end of the range is full. -/
theorem toInt_chunkEnd {hi first : Int64} (h : chunkEnd hi first ≠ hi) :
    (chunkEnd hi first).toInt = first.toInt + 4095 ∧ (chunkEnd hi first).toInt < hi.toInt := by
  unfold chunkEnd at h ⊢
  dsimp only at h ⊢
  split at h
  · exact absurd rfl h
  · next hif =>
    rw [if_neg hif]
    rw [Bool.or_eq_true, decide_eq_true_eq, decide_eq_true_eq, not_or, Int64.not_lt, Int64.not_lt,
      Int64.le_iff_toInt_le, Int64.le_iff_toInt_le] at hif
    have hne : (first + chunkSize - 1).toInt ≠ hi.toInt := fun he => h (Int64.toInt_inj.mp he)
    have hsum : (first + chunkSize - 1).toInt =
        (first.toInt + 4096 - 1).bmod 18446744073709551616 := by
      rw [Int64.toInt_sub, Int64.toInt_add]
      exact Int.bmod_sub_bmod
    have h1 := first.le_toInt
    have h2 := first.toInt_le
    have hmax : Int64.maxValue.toInt = 9223372036854775807 := rfl
    have hmin : Int64.minValue.toInt = -9223372036854775808 := rfl
    rw [Int.bmod_def] at hsum
    split at hsum <;> omega

/-- The number after a full chunk is still a number. -/
theorem toInt_add_chunkSize {hi first : Int64} (h : chunkEnd hi first ≠ hi) :
    (first + chunkSize).toInt = first.toInt + 4096 := by
  obtain ⟨h1, h2⟩ := toInt_chunkEnd h
  have h3 := first.le_toInt
  have h4 := hi.toInt_le
  have hmax : Int64.maxValue.toInt = 9223372036854775807 := rfl
  have hmin : Int64.minValue.toInt = -9223372036854775808 := rfl
  rw [Int64.toInt_add, show chunkSize.toInt = 4096 from rfl]
  exact Int.bmod_eq_of_le (by omega) (by omega)

/-- Cuts the numbers from `first` to `hi` into chunks. -/
def chunksFrom (hi first : Int64) : List Chunk :=
  if first ≤ hi then
    if chunkEnd hi first = hi then [⟨first, hi⟩]
    else ⟨first, chunkEnd hi first⟩ :: chunksFrom hi (first + chunkSize)
  else []
termination_by (hi.toInt - first.toInt).toNat
decreasing_by
  rename_i h
  have h1 := toInt_chunkEnd h
  rw [toInt_add_chunkSize h]
  omega

/-- The chunks of a range; an empty range has none. -/
def chunks (lo hi : Int64) : List Chunk := chunksFrom hi lo

/-! ## Comparing -/

/-- The predicate's disagreement with a reference on one number, the plain reference first. -/
def disagreement? (predicate : Int64 → Bool) (n : Int64) : Option Mismatch :=
  let got := predicate n
  if got != isPrimeByTrial n then some ⟨n, got, isPrimeByTrial n, "trial-division"⟩
  else if got != isProbablePrime n then some ⟨n, got, isProbablePrime n, oracleName⟩
  else none

/-- How far a task has got with its chunk. -/
inductive Stage where
  /-- It has not looked yet whether the check was called off. -/
  | begun
  /-- The numbers before `n` are compared. -/
  | comparing (n : Int64)
  /-- It has an answer; none is that all numbers agree. -/
  | answered (fault : Option Fault)
  /-- Its fault was noted, and it is to call the check off. -/
  | noted

/-- A task that checks a chunk. -/
structure Task where
  chunk : Chunk
  stage : Stage := .begun

/-- What the tasks have in common. -/
structure Board where
  /-- Why the check was called off, if it was. -/
  calledOff : Option Fault := none
  /-- The first fault that a task came to. -/
  fault : Option Fault := none

/-- What a task does next: what becomes of it, none if it is through, and of the board. A task whose
fault is not the first one does not wait until the check is called off. -/
def Task.step (predicate : Int64 → Bool) (t : Task) (b : Board) : Option Task × Board :=
  match t.stage with
  | .begun =>
    match b.calledOff with
    | some cause => (some { t with stage := .answered (some cause) }, b)
    | none => (some { t with stage := .comparing t.chunk.first }, b)
  | .comparing n =>
    match disagreement? predicate n with
    | some m => (some { t with stage := .answered (some (.mismatch m)) }, b)
    | none =>
      if n == t.chunk.last then (some { t with stage := .answered none }, b)
      else (some { t with stage := .comparing (n + 1) }, b)
  | .answered none => (none, b)
  | .answered (some f) =>
    match b.fault with
    | none => (some { t with stage := .noted }, { b with fault := some f })
    | some _ => (none, b)
  | .noted =>
    match b.calledOff with
    | none => (none, { b with calledOff := some .canceled })
    | some _ => (none, b)

/-- How much a task has to do at most. -/
def Task.left (t : Task) : Nat :=
  match t.stage with
  | .begun => (t.chunk.last.toUInt64 - t.chunk.first.toUInt64).toNat + 4
  | .comparing n => (t.chunk.last.toUInt64 - n.toUInt64).toNat + 3
  | .answered _ => 2
  | .noted => 1

theorem toNat_sub_succ_lt {last n : Int64} (h : n ≠ last) :
    (last.toUInt64 - (n + 1).toUInt64).toNat < (last.toUInt64 - n.toUInt64).toNat := by
  have hne : last.toUInt64.toNat ≠ n.toUInt64.toNat := fun he =>
    h (Int64.toBitVec_inj.mp (congrArg UInt64.toBitVec (UInt64.toNat_inj.mp he))).symm
  have h1 := last.toUInt64.toNat_lt
  have h2 := n.toUInt64.toNat_lt
  rw [Int64.toUInt64_add, UInt64.toNat_sub, UInt64.toNat_sub, UInt64.toNat_add,
    show (1 : Int64).toUInt64.toNat = 1 from rfl]
  omega

/-- A task that goes on has less to do. -/
theorem Task.left_step (predicate : Int64 → Bool) (t : Task) (b : Board) :
    ((t.step predicate b).1.map Task.left).getD 0 < t.left := by
  obtain ⟨c, stage⟩ := t
  cases stage with
  | begun =>
    unfold Task.step
    cases b.calledOff <;> simp [Task.left]
  | comparing n =>
    cases hd : disagreement? predicate n with
    | some m => simp [Task.step, hd, Task.left]
    | none =>
      by_cases h : n = c.last
      · rw [h] at hd
        simp [Task.step, hd, Task.left, h]
      · have hlt := toNat_sub_succ_lt h
        simp only [Task.step, hd, beq_iff_eq, h, if_false, Option.map_some,
          Option.getD_some, Task.left]
        omega
  | answered fault =>
    unfold Task.step
    cases fault with
    | none => simp [Task.left]
    | some f => cases b.fault <;> simp [Task.left]
  | noted =>
    unfold Task.step
    cases b.calledOff <;> simp [Task.left]

/-! ## Turns -/

/-- Who goes on. -/
inductive Turn where
  /-- The one who hands out the chunks. -/
  | hand
  /-- The task at a place. -/
  | task (place : Nat)
deriving DecidableEq

/-- A check that is under way. -/
structure CrossCheck extends Board where
  /-- The chunks that were not handed out yet. -/
  rest : List Chunk := []
  /-- The tasks that are not through. -/
  tasks : List Task := []

namespace CrossCheck

/-- A check of a range that is to begin, in a session that may have ended already. -/
def start (ended : Option Fault) (lo hi : Int64) : CrossCheck :=
  { calledOff := ended, rest := chunks lo hi }

/-- True if all chunks were handed out and all tasks are through. -/
def isOver (s : CrossCheck) : Bool := s.rest.isEmpty && s.tasks.isEmpty

/-- What a turn does. A chunk is handed out only if fewer than `workers` tasks are not through. -/
def step (workers : Nat) (predicate : Int64 → Bool) (s : CrossCheck) : Turn → CrossCheck
  | .hand =>
    match s.rest with
    | [] => s
    | c :: rest =>
      if s.tasks.length < workers then { s with rest, tasks := s.tasks ++ [{ chunk := c }] } else s
  | .task place =>
    match s.tasks[place]? with
    | none => s
    | some t =>
      let (next, board) := t.step predicate s.toBoard
      { s with
          toBoard := board, tasks := s.tasks.take place ++ next.toList ++ s.tasks.drop (place + 1) }

/-- What becomes of a check by a schedule. -/
def follow (workers : Nat) (predicate : Int64 → Bool) (s : CrossCheck)
    (schedule : List Turn) : CrossCheck :=
  schedule.foldl (step workers predicate) s

/-! ## Everybody in turn -/

/-- Lets as many tasks go on once, from a place on. One that is through leaves its place to the
next. -/
def sweep (workers : Nat) (predicate : Int64 → Bool) : Nat → Nat → CrossCheck → CrossCheck
  | 0, _, s => s
  | count + 1, place, s =>
    let next := s.step workers predicate (.task place)
    sweep workers predicate count
      (if next.tasks.length < s.tasks.length then place else place + 1) next

/-- One turn for the one who hands out the chunks, and then one for each task. -/
def round (workers : Nat) (predicate : Int64 → Bool) (s : CrossCheck) : CrossCheck :=
  let handed := s.step workers predicate .hand
  sweep workers predicate handed.tasks.length 0 handed

/-- The sum of some amounts. -/
def total {α : Type} (amount : α → Nat) : List α → Nat
  | [] => 0
  | a :: as => amount a + total amount as

theorem total_append {α : Type} (amount : α → Nat) (as bs : List α) :
    total amount (as ++ bs) = total amount as + total amount bs := by
  induction as with
  | nil => simp [total]
  | cons a as ih => rw [List.cons_append, total, total, ih, Nat.add_assoc]

/-- How much there is to do at most. -/
def left (s : CrossCheck) : Nat :=
  total (fun c => Task.left { chunk := c } + 1) s.rest + total Task.left s.tasks

variable {workers : Nat} {predicate : Int64 → Bool} {s : CrossCheck}

theorem left_step_hand {c : Chunk} {rest : List Chunk} (hrest : s.rest = c :: rest)
    (h : s.tasks.length < workers) :
    (s.step workers predicate .hand).left < s.left := by
  simp only [step, hrest, if_pos h, left, total_append, total]
  omega

theorem left_step_task {place : Nat} (h : place < s.tasks.length) :
    (s.step workers predicate (.task place)).left < s.left := by
  have ht := List.getElem?_eq_getElem h
  have hsplit : s.tasks.take place ++ s.tasks[place] :: s.tasks.drop (place + 1) = s.tasks := by
    rw [← List.drop_eq_getElem_cons h, List.take_append_drop]
  have hlt := Task.left_step predicate s.tasks[place] s.toBoard
  have hnext : total Task.left ((s.tasks[place].step predicate s.toBoard).1.toList) =
      (((s.tasks[place].step predicate s.toBoard).1.map Task.left).getD 0) := by
    cases (s.tasks[place].step predicate s.toBoard).1 <;> simp [total]
  have htotal := congrArg (total Task.left) hsplit
  rw [total_append, total] at htotal
  simp only [step, ht, left, total_append, hnext]
  omega

theorem left_step_le (turn : Turn) : (s.step workers predicate turn).left ≤ s.left := by
  cases turn with
  | hand =>
    cases hrest : s.rest with
    | nil => simp [step, hrest]
    | cons c rest =>
      by_cases h : s.tasks.length < workers
      · exact Nat.le_of_lt (left_step_hand hrest h)
      · simp [step, hrest, h]
  | task place =>
    by_cases h : place < s.tasks.length
    · exact Nat.le_of_lt (left_step_task h)
    · simp [step, List.getElem?_eq_none (Nat.le_of_not_lt h)]

theorem left_sweep_le (count place : Nat) (s : CrossCheck) :
    (sweep workers predicate count place s).left ≤ s.left := by
  induction count generalizing place s with
  | zero => exact Nat.le_refl _
  | succ count ih => exact Nat.le_trans (ih _ _) (left_step_le _)

/-- A round of a check that is not over leaves less to do. -/
theorem left_round (hw : 0 < workers) (h : s.isOver = false) :
    (s.round workers predicate).left < s.left := by
  unfold round
  dsimp only
  by_cases htasks : (s.step workers predicate .hand).tasks.length = 0
  · -- There is no task even after the turn of the one who hands out, so there is no chunk either.
    exfalso
    have hlen := List.length_eq_zero_iff.mp htasks
    cases hrest : s.rest with
    | nil =>
      simp only [step, hrest] at hlen
      simp [isOver, hrest, hlen] at h
    | cons c rest =>
      simp only [step, hrest] at hlen
      split at hlen
      · simp at hlen
      · next hroom => exact hroom (by rw [hlen]; exact hw)
  · obtain ⟨count, hcount⟩ := Nat.exists_eq_succ_of_ne_zero htasks
    rw [hcount, sweep]
    refine Nat.lt_of_le_of_lt (left_sweep_le _ _ _)
      (Nat.lt_of_lt_of_le (left_step_task ?_) (left_step_le .hand))
    omega

/-- Goes on round by round until the check is over. -/
def finish (workers : Nat) (hw : 0 < workers) (predicate : Int64 → Bool)
    (s : CrossCheck) : CrossCheck :=
  if s.isOver then s else finish workers hw predicate (s.round workers predicate)
termination_by s.left
decreasing_by
  rename_i h
  exact left_round hw (Bool.eq_false_iff.mpr h)

end CrossCheck

/-- How many tasks go on side by side: as many as asked for, or one for each processor. -/
def taskLimit (processors : Nat) (workers : Int) : Nat :=
  if workers ≤ 0 then max processors 1 else workers.toNat

theorem taskLimit_pos (processors : Nat) (workers : Int) : 0 < taskLimit processors workers := by
  unfold taskLimit
  split <;> omega

/-- Checks the predicate on a range, in a session that may have ended already. -/
def check (ended : Option Fault) (processors : Nat) (workers : Int) (lo hi : Int64)
    (predicate : Int64 → Bool) :
    Option Fault :=
  ((CrossCheck.start ended lo hi).finish _ (taskLimit_pos processors workers) predicate).fault

end Prime

end Stopwatch
