import Mathlib.Data.List.Perm.Subperm
import Stopwatch.Proofs.Prime.Answers

/-!
# Cross-checks by any schedule

A schedule says in which order the one who hands out the chunks and the tasks go on. `Sound` is what
holds in every state that a schedule can lead to, and from it follows what a check comes to
(`crossCheck_by_any_schedule`):

* no fault is noted exactly if no task answers with one, which is to say that the predicate agrees
  with both references on the whole range;
* a fault that is noted is what the task of some chunk answers. The fault of a check that was called
  off comes too late, because the check is called off only after a fault was noted.

No schedule gets stuck, and none goes on forever. What `check` does is one of them
(`exists_follow_finish`).
-/

namespace Stopwatch.Prime

variable {ended : Option Fault} {predicate : Int64 → Bool} {workers : Nat} {lo hi : Int64}

/-! ## One task -/

/-- What holds for a task once the given fault is noted. The answer of a task is that of its chunk,
or comes too late. -/
def Task.Knows (ended : Option Fault) (predicate : Int64 → Bool)
    (fault : Option Fault) (t : Task) : Prop :=
  match t.stage with
  | .begun => True
  | .comparing n => ended = none ∧ checkFrom predicate t.chunk.last n = t.chunk.check predicate
  | .answered answer => answer = t.chunk.answer? ended predicate ∨ answer.isSome ∧ fault.isSome
  | .noted => fault.isSome

/-- The check is called off by the session that it is made in, or after a fault was noted. -/
def Board.Fits (ended : Option Fault) (b : Board) : Prop :=
  b.calledOff = ended ∨ b.fault.isSome ∧ ended = none

/-- What the step of a task does: what becomes of the task and of the board. -/
structure Task.Stepped (ended : Option Fault) (predicate : Int64 → Bool) (t : Task) (b : Board)
    (after : Option Task × Board) : Prop where
  stays : ∀ u, after.1 = some u → u.chunk = t.chunk ∧ u.Knows ended predicate after.2.fault
  leaves : after.1 = none → after.2.fault = none → t.chunk.answer? ended predicate = none
  fault : after.2.fault = b.fault ∨ b.fault = none ∧ after.2.fault = t.chunk.answer? ended predicate
  fits : after.2.Fits ended

theorem Board.Fits.ended_eq_none {b : Board} (h : b.Fits ended) (hoff : b.calledOff = none) :
    ended = none := by
  rcases h with h | ⟨-, h⟩
  · rw [← h, hoff]
  · exact h

/-- A task that only gets to another stage. -/
theorem Task.stepped_of_stage {c : Chunk} {stage next : Stage} {b : Board} (hfits : b.Fits ended)
    (hknows : Task.Knows ended predicate b.fault ⟨c, next⟩) :
    Task.Stepped ended predicate ⟨c, stage⟩ b (some ⟨c, next⟩, b) where
  stays u h := by
    obtain rfl := Option.some.inj h
    exact ⟨rfl, hknows⟩
  leaves h := absurd h (by simp)
  fault := .inl rfl
  fits := hfits

/-- A task that leaves and notes nothing. -/
theorem Task.stepped_of_through {t : Task} {b : Board} {off : Option Fault}
    (hfits : Board.Fits ended ⟨off, b.fault⟩)
    (hleaves : b.fault = none → t.chunk.answer? ended predicate = none) :
    t.Stepped ended predicate b (none, ⟨off, b.fault⟩) where
  stays u h := absurd h (by simp)
  leaves _ := hleaves
  fault := .inl rfl
  fits := hfits

theorem Task.stepped {t : Task} {b : Board} (hknows : t.Knows ended predicate b.fault)
    (hfits : b.Fits ended) :
    t.Stepped ended predicate b (t.step predicate b) := by
  obtain ⟨c, stage⟩ := t
  cases stage with
  | begun =>
    cases hoff : b.calledOff with
    | some cause =>
      simp only [Task.step, hoff]
      refine stepped_of_stage hfits ?_
      rcases hfits with h | ⟨h, -⟩
      · exact .inl (by rw [← h, hoff]; rfl)
      · exact .inr ⟨rfl, h⟩
    | none =>
      simp only [Task.step, hoff]
      exact stepped_of_stage hfits ⟨hfits.ended_eq_none hoff, rfl⟩
  | comparing n =>
    obtain ⟨rfl, hcheck⟩ := hknows
    rw [checkFrom] at hcheck
    cases hd : disagreement? predicate n with
    | some m =>
      simp only [hd] at hcheck
      simp only [Task.step, hd]
      exact stepped_of_stage hfits (.inl (by rw [Chunk.answer?, ← hcheck, Option.map_some]))
    | none =>
      simp only [hd] at hcheck
      simp only [Task.step, hd, beq_iff_eq]
      split
      · next hn =>
        rw [if_pos hn] at hcheck
        exact stepped_of_stage hfits (.inl (by rw [Chunk.answer?, ← hcheck, Option.map_none]))
      · next hn =>
        rw [if_neg hn] at hcheck
        exact stepped_of_stage hfits ⟨rfl, hcheck⟩
  | answered answer =>
    cases answer with
    | none =>
      refine stepped_of_through hfits fun _ => ?_
      rcases hknows with h | ⟨h, -⟩
      · exact h.symm
      · exact absurd h (by simp)
    | some f =>
      cases hfault : b.fault with
      | none =>
        have hanswer : some f = c.answer? ended predicate := by
          rcases hknows with h | ⟨-, h⟩
          · exact h
          · rw [hfault] at h
            exact absurd h (by simp)
        simp only [Task.step, hfault]
        refine ⟨?_, fun h => absurd h (by simp), .inr ⟨hfault, hanswer⟩,
          hfits.imp id fun h => ⟨rfl, h.2⟩⟩
        intro u h
        obtain rfl := Option.some.inj h
        exact ⟨rfl, rfl⟩
      | some g =>
        simp only [Task.step, hfault]
        exact stepped_of_through hfits fun h => absurd (hfault.symm.trans h) (by simp)
  | noted =>
    have hnoted : b.fault.isSome := hknows
    have hnone : b.fault = none → c.answer? ended predicate = none := fun h => by simp [h] at hnoted
    cases hoff : b.calledOff with
    | none =>
      simp only [Task.step, hoff]
      exact stepped_of_through (.inr ⟨hnoted, hfits.ended_eq_none hoff⟩) hnone
    | some cause =>
      simp only [Task.step, hoff]
      exact stepped_of_through hfits hnone

theorem Task.Knows.of_isSome {t : Task} {fault fault' : Option Fault}
    (h : t.Knows ended predicate fault) (himp : fault.isSome → fault'.isSome) :
    t.Knows ended predicate fault' := by
  unfold Task.Knows at h ⊢
  split
  · trivial
  · next hstage => simpa only [hstage] using h
  · next hstage =>
    simp only [hstage] at h
    exact h.imp id fun h => ⟨h.1, himp h.2⟩
  · next hstage =>
    simp only [hstage] at h
    exact himp h

/-! ## The whole check -/

/-- How many of the chunks have a task that answers with a fault. -/
def failing (ended : Option Fault) (predicate : Int64 → Bool) (cs : List Chunk) : Nat :=
  cs.countP fun c => (c.answer? ended predicate).isSome

/-- The fault is the answer for a chunk, before which fewer chunks fail than there are tasks at a
time. -/
def Possible (ended : Option Fault) (predicate : Int64 → Bool) (workers : Nat)
    (lo hi : Int64) (f : Fault) : Prop :=
  ∃ before c after, chunks lo hi = before ++ c :: after ∧ c.answer? ended predicate = some f ∧
    failing ended predicate before < workers

namespace CrossCheck

variable {s : CrossCheck} {handed : List Chunk}

/-- What holds once the chunks in `handed` were handed out. As long as no fault is noted, a chunk
that fails still has its task. -/
structure Sound (ended : Option Fault) (predicate : Int64 → Bool) (workers : Nat) (lo hi : Int64)
    (handed : List Chunk) (s : CrossCheck) : Prop where
  split : chunks lo hi = handed ++ s.rest
  mem : ∀ t ∈ s.tasks, t.chunk ∈ handed
  knows : ∀ t ∈ s.tasks, t.Knows ended predicate s.fault
  covered : s.fault = none → ∀ c ∈ handed, (c.answer? ended predicate).isSome →
    ∃ t ∈ s.tasks, t.chunk = c
  fits : s.toBoard.Fits ended
  possible : ∀ f, s.fault = some f → Possible ended predicate workers lo hi f
  length_le : s.tasks.length ≤ workers

theorem sound_start : Sound ended predicate workers lo hi [] (start ended lo hi) where
  split := rfl
  mem t h := absurd h (by simp [start])
  knows t h := absurd h (by simp [start])
  covered _ c h := absurd h (by simp)
  fits := .inl rfl
  possible f h := absurd h (by simp [start])
  length_le := Nat.zero_le _

/-- The chunks that fail among those handed out are all in work while no fault is noted, so there
are not too many. -/
theorem Sound.possible_of_mem (h : Sound ended predicate workers lo hi handed s)
    (hnone : s.fault = none) {t : Task} (ht : t ∈ s.tasks) {f : Fault}
    (hf : t.chunk.answer? ended predicate = some f) :
    Possible ended predicate workers lo hi f := by
  obtain ⟨before, after, hhanded⟩ := List.append_of_mem (h.mem t ht)
  refine ⟨before, t.chunk,
    after ++ s.rest, by rw [h.split, hhanded, List.append_assoc, List.cons_append], hf, ?_⟩
  have hnodup : (before ++ [t.chunk]).Nodup := by
    have hall := nodup_chunks lo hi
    rw [h.split, hhanded, show before ++ t.chunk :: after = before ++
      [t.chunk] ++ after by simp] at hall
    exact (List.nodup_append.mp (List.nodup_append.mp hall).1).1
  have hsub : (before ++ [t.chunk]).filter (fun c => (c.answer? ended predicate).isSome) ⊆
      s.tasks.map (·.chunk) := by
    intro c hc
    obtain ⟨hmem, hfails⟩ := List.mem_filter.mp hc
    have hin : c ∈ handed := by
      rw [hhanded, List.mem_append, List.mem_cons]
      rcases List.mem_append.mp hmem with hmem | hmem
      · exact .inl hmem
      · exact .inr (.inl (List.mem_singleton.mp hmem))
    obtain ⟨u, hu, rfl⟩ := h.covered hnone c hin hfails
    exact List.mem_map_of_mem hu
  have hle := (List.subperm_of_subset (hnodup.filter _) hsub).length_le
  have hlen := h.length_le
  rw [← List.countP_eq_length_filter, List.countP_append, List.length_map] at hle
  simp only [List.countP_cons, List.countP_nil, hf, Option.isSome_some, if_true] at hle
  unfold failing
  omega

theorem Sound.hand (h : Sound ended predicate workers lo hi handed s)
    {c : Chunk} {rest : List Chunk} (hrest : s.rest = c :: rest)
    (hroom : s.tasks.length < workers) :
    Sound ended predicate workers lo hi (handed ++ [c])
      { s with rest, tasks := s.tasks ++ [{ chunk := c }] } where
  split := by rw [h.split, hrest, List.append_assoc, List.singleton_append]
  mem t ht := by
    rcases List.mem_append.mp ht with ht | ht
    · exact List.mem_append_left _ (h.mem t ht)
    · rw [List.mem_singleton.mp ht]
      exact List.mem_append_right _ (List.mem_singleton_self c)
  knows t ht := by
    rcases List.mem_append.mp ht with ht | ht
    · exact h.knows t ht
    · rw [List.mem_singleton.mp ht]
      trivial
  covered hnone d hd hfails := by
    rcases List.mem_append.mp hd with hd | hd
    · obtain ⟨t, ht, heq⟩ := h.covered hnone d hd hfails
      exact ⟨t, List.mem_append_left _ ht, heq⟩
    · rw [List.mem_singleton.mp hd]
      exact ⟨_, List.mem_append_right _ (List.mem_singleton_self _), rfl⟩
  fits := h.fits
  possible := h.possible
  length_le := by
    rw [List.length_append]
    exact hroom

theorem Sound.task (h : Sound ended predicate workers lo hi handed s) {t : Task} {ts us : List Task}
    (htasks : s.tasks = ts ++ t :: us) {next : Option Task × Board}
    (hstep : t.Stepped ended predicate s.toBoard next) :
    Sound ended predicate workers lo hi handed
      { s with toBoard := next.2, tasks := ts ++ next.1.toList ++ us } := by
  have ht : t ∈ s.tasks := by simp [htasks]
  have hothers : ∀ u, u ∈ ts ∨ u ∈ us → u ∈ s.tasks := by
    intro u hu
    rw [htasks, List.mem_append, List.mem_cons]
    exact hu.imp id .inr
  have hcases : ∀ u ∈ ts ++ next.1.toList ++ us, next.1 = some u ∨ u ∈ ts ∨ u ∈ us := by
    intro u hu
    simp only [List.mem_append, Option.mem_toList] at hu
    tauto
  have hsome : s.fault.isSome → next.2.fault.isSome := by
    intro hs
    rcases hstep.fault with heq | ⟨hnone, -⟩
    · rwa [heq]
    · rw [hnone] at hs
      exact absurd hs (by simp)
  refine
    { split := h.split, mem := ?_, knows := ?_, covered := ?_, fits := hstep.fits,
      possible := ?_, length_le := ?_ }
  · intro u hu
    rcases hcases u hu with hnext | hu
    · rw [(hstep.stays u hnext).1]
      exact h.mem t ht
    · exact h.mem u (hothers u hu)
  · intro u hu
    rcases hcases u hu with hnext | hu
    · exact (hstep.stays u hnext).2
    · exact (h.knows u (hothers u hu)).of_isSome hsome
  · intro hnone c hc hfails
    have hnone' : s.fault = none := by
      cases hs : s.fault with
      | none => rfl
      | some f =>
        rw [hs] at hsome
        have := hsome rfl
        rw [show next.2.fault = none from hnone] at this
        exact absurd this (by simp)
    obtain ⟨u, hu, rfl⟩ := h.covered hnone' c hc hfails
    rw [htasks, List.mem_append, List.mem_cons] at hu
    -- The task of a chunk that fails does not leave without a fault being noted.
    rcases hu with hu | rfl | hu
    · exact ⟨u, by simp [hu], rfl⟩
    · cases hnext : next.1 with
      | none =>
        rw [hstep.leaves hnext hnone] at hfails
        exact absurd hfails (by simp)
      | some v => exact ⟨v, by simp, (hstep.stays v hnext).1⟩
    · exact ⟨u, by simp [hu], rfl⟩
  · intro f hf
    rcases hstep.fault with heq | ⟨hnone, heq⟩
    · exact h.possible f (heq.symm.trans hf)
    · exact h.possible_of_mem hnone ht (heq.symm.trans hf)
  · have hlen := h.length_le
    rw [htasks] at hlen
    cases next.1 <;> simp at hlen ⊢ <;> omega

theorem Sound.step (h : Sound ended predicate workers lo hi handed s) (turn : Turn) :
    ∃ handed', Sound ended predicate workers lo hi handed' (s.step workers predicate turn) := by
  cases turn with
  | hand =>
    unfold CrossCheck.step
    dsimp only
    split
    · exact ⟨handed, h⟩
    · next c rest hrest =>
      split
      · next hroom => exact ⟨_, h.hand hrest hroom⟩
      · exact ⟨handed, h⟩
  | task place =>
    unfold CrossCheck.step
    dsimp only
    split
    · exact ⟨handed, h⟩
    · next t ht =>
      obtain ⟨hlt, rfl⟩ := List.getElem?_eq_some_iff.mp ht
      have htasks : s.tasks = s.tasks.take place ++ s.tasks[place] :: s.tasks.drop (place + 1) := by
        rw [← List.drop_eq_getElem_cons hlt, List.take_append_drop]
      exact ⟨handed, h.task htasks (Task.stepped (h.knows _ (List.getElem_mem hlt)) h.fits)⟩

theorem Sound.follow (h : Sound ended predicate workers lo hi handed s) (schedule : List Turn) :
    ∃ handed', Sound ended predicate workers lo hi handed'
      (s.follow workers predicate schedule) := by
  induction schedule generalizing s handed with
  | nil => exact ⟨handed, h⟩
  | cons turn schedule ih =>
    obtain ⟨handed', h'⟩ := h.step turn
    exact ih h'

theorem sound_follow_start (ended : Option Fault) (predicate : Int64 → Bool)
    (workers : Nat) (lo hi : Int64) (schedule : List Turn) :
    ∃ handed, Sound ended predicate workers lo hi handed
      ((start ended lo hi).follow workers predicate schedule) :=
  sound_start.follow schedule

/-- When a check is over, a fault was noted exactly if a task answered with one. -/
theorem Sound.fault_eq_none_iff (h : Sound ended predicate workers lo hi handed s)
    (hover : s.isOver = true) :
    s.fault = none ↔ ∀ c ∈ chunks lo hi, c.answer? ended predicate = none := by
  obtain ⟨hrest, htasks⟩ : s.rest = [] ∧ s.tasks = [] := by simpa [isOver] using hover
  constructor
  · intro hnone c hc
    rw [h.split, hrest, List.append_nil] at hc
    by_contra hne
    obtain ⟨t, ht, -⟩ := h.covered hnone c hc (Option.isSome_iff_ne_none.mpr hne)
    rw [htasks] at ht
    exact absurd ht (by simp)
  · intro hall
    cases hf : s.fault with
    | none => rfl
    | some f =>
      obtain ⟨before, c, after, hsplit, hanswer, -⟩ := h.possible f hf
      rw [hall c (by simp [hsplit])] at hanswer
      exact absurd hanswer (by simp)

/-! ## The end of a check -/

theorem follow_append (s : CrossCheck) (schedule more : List Turn) :
    s.follow workers predicate (schedule ++ more) =
      (s.follow workers predicate schedule).follow workers predicate more := List.foldl_append

/-- A turn in which anything happens leaves less to do. -/
theorem step_eq_or_left_lt (s : CrossCheck) (turn : Turn) :
    s.step workers predicate turn = s ∨ (s.step workers predicate turn).left < s.left := by
  cases turn with
  | hand =>
    cases hrest : s.rest with
    | nil => exact .inl (by simp [CrossCheck.step, hrest])
    | cons c rest =>
      by_cases hroom : s.tasks.length < workers
      · exact .inr (left_step_hand hrest hroom)
      · exact .inl (by simp [CrossCheck.step, hrest, hroom])
  | task place =>
    by_cases hlt : place < s.tasks.length
    · exact .inr (left_step_task hlt)
    · exact .inl (by simp [CrossCheck.step, List.getElem?_eq_none (Nat.le_of_not_lt hlt)])

/-- A check that is not over can go on: a task can, or a chunk can be handed out. -/
theorem exists_step_left_lt (hw : 0 < workers) (h : s.isOver = false) :
    ∃ turn, (s.step workers predicate turn).left < s.left := by
  by_cases htasks : s.tasks = []
  · cases hrest : s.rest with
    | nil => simp [isOver, htasks, hrest] at h
    | cons c rest => exact ⟨.hand, left_step_hand hrest (by rw [htasks]; exact hw)⟩
  · exact ⟨.task 0, left_step_task (List.length_pos_iff.mpr htasks)⟩

theorem isOver_finish (hw : 0 < workers) (s : CrossCheck) :
    (s.finish workers hw predicate).isOver = true := by
  fun_induction finish workers hw predicate s with
  | case1 s h => exact h
  | case2 s h ih => exact ih

theorem exists_follow_sweep (workers : Nat) (predicate : Int64 → Bool)
    (count place : Nat) (s : CrossCheck) :
    ∃ schedule, s.follow workers predicate schedule = sweep workers predicate count place s := by
  induction count generalizing place s with
  | zero => exact ⟨[], rfl⟩
  | succ count ih =>
    obtain ⟨schedule, h⟩ := ih
      (if (s.step workers predicate (.task place)).tasks.length < s.tasks.length then
        place else place + 1)
      (s.step workers predicate (.task place))
    exact ⟨.task place :: schedule, h⟩

theorem exists_follow_round (workers : Nat) (predicate : Int64 → Bool) (s : CrossCheck) :
    ∃ schedule, s.follow workers predicate schedule = s.round workers predicate := by
  obtain ⟨schedule, h⟩ :=
    exists_follow_sweep workers predicate (s.step workers predicate .hand).tasks.length 0
      (s.step workers predicate .hand)
  exact ⟨.hand :: schedule, h⟩

/-- To let everybody go on in turn is a schedule. -/
theorem exists_follow_finish (hw : 0 < workers) (predicate : Int64 → Bool) (s : CrossCheck) :
    ∃ schedule, s.follow workers predicate schedule = s.finish workers hw predicate := by
  fun_induction finish workers hw predicate s with
  | case1 s h => exact ⟨[], rfl⟩
  | case2 s h ih =>
    obtain ⟨first, hfirst⟩ := exists_follow_round workers predicate s
    obtain ⟨rest, hrest⟩ := ih
    exact ⟨first ++ rest, by rw [follow_append, hfirst, hrest]⟩

end CrossCheck

/-! ## What a check comes to -/

theorem check_eq_fault (ended : Option Fault) (processors : Nat) (hw : 0 < workers) (lo hi : Int64)
    (predicate : Int64 → Bool) :
    check ended processors workers lo hi predicate =
      ((CrossCheck.start ended lo hi).finish workers hw predicate).fault := by
  have hlimit : taskLimit processors workers = workers := by
    rw [taskLimit, if_neg (by omega), Int.toNat_natCast]
  simp only [check, hlimit]

theorem forall_answer?_eq_none_iff :
    (∀ c ∈ chunks lo hi, c.answer? none predicate = none) ↔ ∀ n, lo ≤ n → n ≤ hi →
      Agrees predicate n := by
  constructor
  · intro hall n h1 h2
    obtain ⟨c, hc, hn⟩ := exists_chunk h1 h2
    exact (Chunk.check_eq_none_iff (bounds_of_mem_chunks hc).2.1).mp
      (Option.map_eq_none_iff.mp (hall c hc)) n hn
  · intro hall c hc
    refine Option.map_eq_none_iff.mpr
      ((Chunk.check_eq_none_iff (bounds_of_mem_chunks hc).2.1).mpr ?_)
    intro n hn
    obtain ⟨h1, h2⟩ := mem_range_of_contains hc hn
    exact hall n h1 h2

theorem Possible.exists_finds {f : Fault} (h : Possible none predicate workers lo hi f) :
    ∃ c ∈ chunks lo hi, ∃ m, f = .mismatch m ∧ c.Finds predicate m := by
  obtain ⟨before, c, after, hsplit, hanswer, -⟩ := h
  have hc : c ∈ chunks lo hi := by simp [hsplit]
  obtain ⟨m, hm, rfl⟩ := Option.map_eq_some_iff.mp hanswer
  exact ⟨c, hc, m, rfl, Chunk.finds_of_check (bounds_of_mem_chunks hc).2.1 hm⟩

/-- **A cross-check by any schedule.** The chunks hold every number of the range once, and there are
never more tasks than workers. A schedule cannot get stuck or go on forever. In a session that has
not ended, no fault is noted exactly if the predicate agrees with both references on the whole
range, and a fault that is noted is the least disagreement of a chunk. In a session that has ended,
what is noted is why it has. The check that is made is by such a schedule. -/
theorem crossCheck_by_any_schedule (lo hi : Int64) (workers : Nat) (hw : 1 ≤ workers)
    (predicate : Int64 → Bool) :
    (lo ≤ hi → Tiles lo.toInt (chunks lo hi) (hi.toInt + 1)) ∧
    (∀ n, lo ≤ n ∧ n ≤ hi ↔ ∃ c ∈ chunks lo hi, c.Contains n) ∧
    (∀ n, ∀ c ∈ chunks lo hi, ∀ d ∈ chunks lo hi, c.Contains n → d.Contains n → c = d) ∧
    (chunks lo hi).Nodup ∧
    (∀ (ended : Option Fault) (schedule : List Turn),
      let s := (CrossCheck.start ended lo hi).follow workers predicate schedule
      s.tasks.length ≤ workers ∧
      (∀ turn, s.step workers predicate turn = s ∨ (s.step workers predicate turn).left < s.left) ∧
      (s.isOver = false → ∃ turn, (s.step workers predicate turn).left < s.left) ∧
      (s.isOver = true → ended = none →
        (s.fault = none ↔ ∀ n, lo ≤ n → n ≤ hi →
          predicate n = isPrimeByTrial n ∧ predicate n = isProbablePrime n) ∧
        ∀ f, s.fault = some f → ∃ c ∈ chunks lo hi, ∃ m, f = .mismatch m ∧ c.Finds predicate m) ∧
      (s.isOver = true → lo ≤ hi → ∀ cause, ended = some cause → s.fault = some cause)) ∧
    (∀ (ended : Option Fault) (processors : Nat), ∃ schedule : List Turn,
      let s := (CrossCheck.start ended lo hi).follow workers predicate schedule
      s.isOver = true ∧ check ended processors workers lo hi predicate = s.fault) := by
  refine ⟨tiles_chunks, ?_, ?_, nodup_chunks lo hi, ?_, ?_⟩
  · intro n
    constructor
    · rintro ⟨h1, h2⟩
      exact exists_chunk h1 h2
    · rintro ⟨c, hc, hn⟩
      exact mem_range_of_contains hc hn
  · intro n c hc d hd hcn hdn
    exact eq_of_contains hc hd hcn hdn
  · intro ended schedule s
    obtain ⟨handed, h⟩ := CrossCheck.sound_follow_start ended predicate workers lo hi schedule
    refine ⟨h.length_le, CrossCheck.step_eq_or_left_lt s, CrossCheck.exists_step_left_lt hw, ?_, ?_⟩
    · rintro hover rfl
      exact ⟨(h.fault_eq_none_iff hover).trans forall_answer?_eq_none_iff,
        fun f hf => (h.possible f hf).exists_finds⟩
    · rintro hover hle cause rfl
      obtain ⟨c, hc, -⟩ := exists_chunk (Int64.le_refl lo) hle
      cases hf : s.fault with
      | none =>
        have := (h.fault_eq_none_iff hover).mp hf c hc
        exact absurd this (by simp [Chunk.answer?])
      | some f =>
        obtain ⟨_, _, _, _, hanswer, _⟩ := h.possible f hf
        exact hanswer.symm
  · intro ended processors
    obtain ⟨schedule, h⟩ :=
      CrossCheck.exists_follow_finish hw predicate (CrossCheck.start ended lo hi)
    refine ⟨schedule, ?_, ?_⟩
    · rw [h]
      exact CrossCheck.isOver_finish hw _
    · rw [h]
      exact check_eq_fault ended processors hw lo hi predicate

/-- At the very end of the numbers, where the sums for the last chunk wrap, in a session that has
run into its deadline. -/
theorem crossCheck_of_top :
    check (some .deadline) 4 2 9223372036854770000 Int64.maxValue isPrime = some .deadline := by
  obtain ⟨-, -, -, -, hall, hmade⟩ :=
    crossCheck_by_any_schedule 9223372036854770000 Int64.maxValue 2 (by decide) isPrime
  obtain ⟨schedule, hover, hcheck⟩ := hmade (some .deadline) 4
  exact hcheck.trans ((hall (some .deadline) schedule).2.2.2.2 hover (by decide) .deadline rfl)

end Stopwatch.Prime
