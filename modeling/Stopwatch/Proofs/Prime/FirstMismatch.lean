import Stopwatch.Proofs.Prime.Schedules
import Stopwatch.Proofs.Prime.TrialDivision

/-!
# Which mismatch is reported

Chunks are handed out in order, but their tasks need not come to their answers in that order, and
the first fault that is noted stays. `exists_schedule_iff` says exactly which faults can be noted:
that of a chunk before which fewer chunks fail than there are workers. Each of those chunks can keep
a worker busy for as long as it takes.

So the least mismatch of the range is sure to be reported only if there is one worker, or only one
chunk fails (`reports_least_iff`). With two workers, the second chunk can be first
(`reports_second_chunk`).
-/

namespace Stopwatch.Prime

variable {ended : Option Fault} {predicate : Int64 → Bool} {workers : Nat} {lo hi : Int64}

namespace CrossCheck

variable {b : Board} {c : Chunk} {rest : List Chunk} {ts : List Task} {f : Fault}

/-! ## Steps of the last task -/

theorem step_last (b : Board) (rest : List Chunk) (ts : List Task) (t : Task) :
    step workers predicate ⟨b, rest, ts ++ [t]⟩ (.task ts.length) =
      ⟨(t.step predicate b).2, rest, ts ++ (t.step predicate b).1.toList⟩ := by
  simp [step]

theorem step_hand (hroom : ts.length < workers) :
    step workers predicate ⟨b, c :: rest, ts⟩ .hand = ⟨b, rest, ts ++ [{ chunk := c }]⟩ := by
  simp [step, hroom]

/-- A task that compares comes to the first disagreement from there on. -/
theorem exists_follow_of_comparing (b : Board) (rest : List Chunk) (ts : List Task)
    (c : Chunk) (n : Int64) :
    ∃ schedule, follow workers predicate ⟨b, rest, ts ++ [⟨c, .comparing n⟩]⟩ schedule =
      ⟨b, rest, ts ++ [⟨c, .answered ((checkFrom predicate c.last n).map Fault.mismatch)⟩]⟩ := by
  fun_induction checkFrom predicate c.last n with
  | case1 n m hd =>
    refine ⟨[.task ts.length], ?_⟩
    rw [follow, List.foldl_cons, step_last]
    simp [Task.step, hd]
  | case2 hd =>
    refine ⟨[.task ts.length], ?_⟩
    rw [follow, List.foldl_cons, step_last]
    simp [Task.step, hd]
  | case3 n hd hne ih =>
    obtain ⟨schedule, hschedule⟩ := ih
    refine ⟨.task ts.length :: schedule, ?_⟩
    rw [follow, List.foldl_cons, step_last]
    simp only [Task.step, hd, beq_iff_eq, hne, if_false, Option.toList_some]
    exact hschedule

/-- A task that begins comes to the answer for its chunk. -/
theorem exists_follow_of_begun (hoff : b.calledOff = ended) (workers : Nat)
    (rest : List Chunk) (ts : List Task) (c : Chunk) :
    ∃ schedule, follow workers predicate ⟨b, rest, ts ++ [{ chunk := c }]⟩ schedule =
      ⟨b, rest, ts ++ [⟨c, .answered (c.answer? ended predicate)⟩]⟩ := by
  cases ended with
  | some cause =>
    refine ⟨[.task ts.length], ?_⟩
    rw [follow, List.foldl_cons, step_last]
    simp [Task.step, hoff, Chunk.answer?]
  | none =>
    obtain ⟨schedule, hschedule⟩ := exists_follow_of_comparing b rest ts c c.first
    refine ⟨.task ts.length :: schedule, ?_⟩
    rw [follow, List.foldl_cons, step_last]
    simp only [Task.step, hoff, Option.toList_some]
    exact hschedule

/-- A chunk that is handed out gets its answer while nobody else goes on. -/
theorem exists_follow_answered (hoff : b.calledOff = ended) (hroom : ts.length < workers) :
    ∃ schedule, follow workers predicate ⟨b, c :: rest, ts⟩ schedule =
      ⟨b, rest, ts ++ [⟨c, .answered (c.answer? ended predicate)⟩]⟩ := by
  obtain ⟨schedule, hschedule⟩ := exists_follow_of_begun hoff workers rest ts c
  refine ⟨.hand :: schedule, ?_⟩
  rw [follow, List.foldl_cons, step_hand hroom]
  exact hschedule

/-- A chunk that does not fail can be done with before anybody else goes on. -/
theorem exists_follow_through (rest : List Chunk) (hoff : b.calledOff = ended)
    (hroom : ts.length < workers) (hanswer : c.answer? ended predicate = none) :
    ∃ schedule, follow workers predicate ⟨b, c :: rest, ts⟩ schedule = ⟨b, rest, ts⟩ := by
  obtain ⟨schedule, hschedule⟩ := exists_follow_answered hoff hroom
  refine ⟨schedule ++ [.task ts.length], ?_⟩
  rw [follow_append, hschedule, hanswer, follow, List.foldl_cons, step_last]
  simp [Task.step]

/-- A chunk that fails can have its fault noted before anybody else goes on. -/
theorem exists_follow_noted (hoff : b.calledOff = ended) (hnone : b.fault = none)
    (hroom : ts.length < workers) (hanswer : c.answer? ended predicate = some f) :
    ∃ schedule, (follow workers predicate ⟨b, c :: rest, ts⟩ schedule).fault = some f := by
  obtain ⟨schedule, hschedule⟩ := exists_follow_answered hoff hroom
  refine ⟨schedule ++ [.task ts.length], ?_⟩
  rw [follow_append, hschedule, hanswer, follow, List.foldl_cons, step_last]
  simp [Task.step, hnone]

/-- The chunks that fail keep their workers busy, those that do not are done with, and then it is
the turn of `c`. -/
theorem exists_follow_of_failing_lt {before after : List Chunk} (hoff : b.calledOff = ended)
    (hnone : b.fault = none) (hanswer : c.answer? ended predicate = some f) :
    ∀ ts : List Task, ts.length + failing ended predicate before < workers →
      ∃ schedule, (follow workers predicate ⟨b, before ++ c :: after, ts⟩ schedule).fault =
        some f := by
  induction before with
  | nil =>
    intro ts hlt
    exact exists_follow_noted hoff hnone (by omega) hanswer
  | cons d before ih =>
    intro ts hlt
    have hcount : failing ended predicate (d :: before) =
        failing ended predicate before + if (d.answer? ended predicate).isSome then 1
        else 0 := List.countP_cons
    rw [hcount] at hlt
    cases hd : d.answer? ended predicate with
    | none =>
      rw [hd] at hlt
      have hroom : ts.length < workers := by omega
      obtain ⟨first, hfirst⟩ := exists_follow_through (before ++ c :: after) hoff hroom hd
      obtain ⟨more, hmore⟩ := ih ts (by simpa using hlt)
      exact ⟨first ++ more, by rw [List.cons_append, follow_append, hfirst, hmore]⟩
    | some g =>
      rw [hd] at hlt
      simp only [Option.isSome_some, if_true] at hlt
      obtain ⟨more, hmore⟩ := ih (ts ++ [{ chunk := d }]) (by simp; omega)
      refine ⟨.hand :: more, ?_⟩
      rw [follow, List.foldl_cons, List.cons_append, step_hand (by omega)]
      exact hmore

/-! ## The fault that is noted stays -/

theorem Task.fault_step {t : Task} (h : b.fault = some f) :
    (t.step predicate b).2.fault = some f := by
  unfold Task.step
  split
  · split <;> exact h
  · split
    · exact h
    · split <;> exact h
  · exact h
  · split
    · next hnone => exact absurd (hnone.symm.trans h) (by simp)
    · exact h
  · split <;> exact h

theorem fault_step {s : CrossCheck} (h : s.fault = some f) (turn : Turn) :
    (s.step workers predicate turn).fault = some f := by
  cases turn with
  | hand =>
    unfold step
    dsimp only
    split
    · exact h
    · split <;> exact h
  | task place =>
    unfold step
    dsimp only
    split
    · exact h
    · exact Task.fault_step h

theorem fault_follow {s : CrossCheck} (h : s.fault = some f) (schedule : List Turn) :
    (s.follow workers predicate schedule).fault = some f := by
  induction schedule generalizing s with
  | nil => exact h
  | cons turn schedule ih => exact ih (fault_step h turn)

theorem fault_finish {s : CrossCheck} (hw : 0 < workers) (predicate : Int64 → Bool)
    (h : s.fault = some f) :
    (s.finish workers hw predicate).fault = some f := by
  obtain ⟨schedule, hschedule⟩ := exists_follow_finish hw predicate s
  rw [← hschedule]
  exact fault_follow h schedule

/-- A round changes nothing about how the check ends. -/
theorem finish_round {s : CrossCheck} (hw : 0 < workers) :
    (s.round workers predicate).finish workers hw predicate = s.finish workers hw predicate := by
  by_cases hover : s.isOver = true
  · obtain ⟨hrest, htasks⟩ : s.rest = [] ∧ s.tasks = [] := by simpa [isOver] using hover
    simp [round, step, sweep, hrest, htasks]
  · conv_rhs => rw [finish, if_neg hover]

/-- **Which faults can be noted**: those of the chunks before which not too many others fail. -/
theorem exists_schedule_iff (hw : 0 < workers) :
    (∃ schedule, ((start ended lo hi).follow workers predicate schedule).isOver = true ∧
      ((start ended lo hi).follow workers predicate schedule).fault = some f) ↔
      Possible ended predicate workers lo hi f := by
  constructor
  · rintro ⟨schedule, -, hfault⟩
    obtain ⟨handed, h⟩ := sound_follow_start ended predicate workers lo hi schedule
    exact h.possible f hfault
  · rintro ⟨before, c, after, hsplit, hanswer, hlt⟩
    have hstart : start ended lo hi = ⟨{ calledOff := ended }, before ++ c :: after, []⟩ := by
      rw [start, hsplit]
    obtain ⟨first, hfirst⟩ : ∃ schedule,
        ((start ended lo hi).follow workers predicate schedule).fault = some f := by
      rw [hstart]
      exact exists_follow_of_failing_lt rfl rfl hanswer [] (by simpa using hlt)
    obtain ⟨more, hmore⟩ :=
      exists_follow_finish hw predicate ((start ended lo hi).follow workers predicate first)
    refine ⟨first ++ more, ?_, ?_⟩
    · rw [follow_append, hmore]
      exact isOver_finish hw _
    · rw [follow_append]
      exact fault_follow hfirst more

end CrossCheck

/-! ## The least mismatch -/

/-- The predicate disagrees with a reference on a number of the chunk. -/
def Chunk.Fails (predicate : Int64 → Bool) (c : Chunk) : Prop :=
  ∃ n, c.Contains n ∧ ¬ Agrees predicate n

variable {c d : Chunk} {m : Mismatch} {before after : List Chunk}

theorem isSome_answer?_iff (hc : c.first ≤ c.last) :
    (c.answer? none predicate).isSome ↔ c.Fails predicate := by
  rw [Chunk.answer?, Option.isSome_map, Option.isSome_iff_ne_none, ne_eq,
    Chunk.check_eq_none_iff hc, Chunk.Fails]
  push Not
  rfl

theorem exists_first_failing {cs : List Chunk} (hd : d ∈ cs)
    (hf : (d.answer? ended predicate).isSome) :
    ∃ before c after, cs = before ++ c :: after ∧ (c.answer? ended predicate).isSome ∧
      failing ended predicate before = 0 := by
  have hfind : (cs.find? fun c => (c.answer? ended predicate).isSome).isSome :=
    List.find?_isSome.mpr ⟨d, hd, hf⟩
  obtain ⟨c, hc⟩ := Option.isSome_iff_exists.mp hfind
  obtain ⟨hfails, before, after, hsplit, hbefore⟩ := List.find?_eq_some_iff_append.mp hc
  refine ⟨before, c, after, hsplit, hfails, List.countP_eq_zero.mpr fun a ha => ?_⟩
  simpa using hbefore a ha

theorem lt_of_split (hsplit : chunks lo hi = before ++ c :: after) (hd : d ∈ after) :
    c.last < d.first := by
  have hpair := pairwise_chunks lo hi
  rw [hsplit, List.pairwise_append, List.pairwise_cons] at hpair
  exact hpair.2.1.1 d hd

/-- Two chunks that fail and two workers: the second chunk can be reported. -/
theorem exists_later_report (hw : 2 ≤ workers) (hc : c ∈ chunks lo hi)
    (hd : d ∈ chunks lo hi) (hne : c ≠ d) (hcf : c.Fails predicate) (hdf : d.Fails predicate) :
    ∃ schedule m, ((CrossCheck.start none lo hi).follow workers predicate schedule).isOver = true ∧
      ((CrossCheck.start none lo hi).follow workers predicate schedule).fault = some (.mismatch m) ∧
      ∃ n, (lo ≤ n ∧ n ≤ hi) ∧ ¬ Agrees predicate n ∧ n < m.n := by
  have hfails : ∀ {e}, e ∈ chunks lo hi → ((e.answer? none predicate).isSome ↔ e.Fails predicate) :=
    fun he => isSome_answer?_iff (bounds_of_mem_chunks he).2.1
  obtain ⟨before, first, after, hsplit, hfirst, hbefore⟩ :=
    exists_first_failing hc ((hfails hc).mpr hcf)
  -- One of the two chunks comes after the first one that fails.
  obtain ⟨e, he, hef⟩ : ∃ e ∈ after, (e.answer? none predicate).isSome := by
    have hlater : ∀ {e}, e ∈ chunks lo hi → e.Fails predicate → e ≠ first →
        ∃ e ∈ after, (e.answer? none predicate).isSome := by
      intro e he hf hne'
      have hsome := (hfails he).mpr hf
      rw [hsplit, List.mem_append, List.mem_cons] at he
      rcases he with he | rfl | he
      · exact absurd hsome (List.countP_eq_zero.mp hbefore e he)
      · exact absurd rfl hne'
      · exact ⟨e, he, hsome⟩
    by_cases hcfirst : c = first
    · exact hlater hd hdf fun hdfirst => hne (hcfirst.trans hdfirst.symm)
    · exact hlater hc hcf hcfirst
  obtain ⟨middle, second, rest, hafter, hsecond, hmiddle⟩ := exists_first_failing he hef
  obtain ⟨f, hf⟩ := Option.isSome_iff_exists.mp hsecond
  have hchunks : chunks lo hi = (before ++ first :: middle) ++ second :: rest := by
    rw [hsplit, hafter, List.append_assoc, List.cons_append]
  have hpossible : Possible none predicate workers lo hi f := by
    refine ⟨before ++ first :: middle, second, rest, hchunks, hf, ?_⟩
    rw [failing, List.countP_append, List.countP_cons, if_pos hfirst]
    unfold failing at hbefore hmiddle
    omega
  obtain ⟨schedule, hover, hfault⟩ := (CrossCheck.exists_schedule_iff (by omega)).mpr hpossible
  have hfirstmem : first ∈ chunks lo hi := by simp [hsplit]
  have hsecondmem : second ∈ chunks lo hi := by simp [hsplit, hafter]
  obtain ⟨m, hm, rfl⟩ := Option.map_eq_some_iff.mp hf
  obtain ⟨n, hn, hnot⟩ := (hfails hfirstmem).mp hfirst
  have hfinds := Chunk.finds_of_check (bounds_of_mem_chunks hsecondmem).2.1 hm
  refine ⟨schedule, m, hover, hfault, n, mem_range_of_contains hfirstmem hn, hnot, ?_⟩
  have hlt := lt_of_split hsplit (show second ∈ after by simp [hafter])
  exact Int64.lt_of_le_of_lt hn.2 (Int64.lt_of_lt_of_le hlt hfinds.contains.1)

/-- If no chunk before it fails, the least mismatch of a chunk is that of the range. -/
theorem le_of_split (hsplit : chunks lo hi = before ++ c :: after) (hfinds : c.Finds predicate m)
    (hbefore : ∀ d ∈ before, d.Fails predicate → d = c) {n : Int64} (h1 : lo ≤ n) (h2 : n ≤ hi)
    (hnot : ¬ Agrees predicate n) : m.n ≤ n := by
  have hself : c.Contains n → m.n ≤ n := by
    intro hn
    by_contra hlt
    exact hnot (hfinds.before n hn.1 (Int64.not_le.mp hlt))
  obtain ⟨d, hd, hn⟩ := exists_chunk h1 h2
  rw [hsplit, List.mem_append, List.mem_cons] at hd
  rcases hd with hd | rfl | hd
  · rw [hbefore d hd ⟨n, hn, hnot⟩] at hn
    exact hself hn
  · exact hself hn
  · have hlt := lt_of_split hsplit hd
    exact Int64.le_trans hfinds.contains.2 (Int64.le_trans (Int64.le_of_lt hlt) hn.1)

/-- **The least mismatch of the range is reported by every schedule exactly if there is one worker,
or the predicate disagrees with a reference in one chunk only.** -/
theorem reports_least_iff (lo hi : Int64) (workers : Nat) (hw : 1 ≤ workers)
    (predicate : Int64 → Bool) :
    (∀ schedule : List Turn,
      let s := (CrossCheck.start none lo hi).follow workers predicate schedule
      s.isOver = true → ∀ m, s.fault = some (.mismatch m) →
        ∀ n, lo ≤ n → n ≤ hi → ¬ Agrees predicate n → m.n ≤ n) ↔
    workers = 1 ∨
      ∀ c ∈ chunks lo hi, ∀ d ∈ chunks lo hi, c.Fails predicate → d.Fails predicate → c = d := by
  constructor
  · intro hall
    by_contra hnot
    push Not at hnot
    obtain ⟨hworkers, c, hc, d, hd, hcf, hdf, hne⟩ := hnot
    have htwo : 2 ≤ workers := by omega
    obtain ⟨schedule, m, hover, hfault, n, ⟨h1, h2⟩, hn, hlt⟩ :=
      exists_later_report htwo hc hd hne hcf hdf
    exact absurd (hall schedule hover m hfault n h1 h2 hn) (Int64.not_le.mpr hlt)
  · intro hone schedule s hover m hfault n h1 h2 hnot
    obtain ⟨handed, h⟩ := CrossCheck.sound_follow_start none predicate workers lo hi schedule
    obtain ⟨before, c, after, hsplit, hanswer, hlt⟩ := h.possible _ hfault
    have hc : c ∈ chunks lo hi := by simp [hsplit]
    obtain ⟨m', hm, heq⟩ := Option.map_eq_some_iff.mp hanswer
    obtain rfl : m' = m := Fault.mismatch.inj heq
    have hfinds := Chunk.finds_of_check (bounds_of_mem_chunks hc).2.1 hm
    refine le_of_split hsplit hfinds ?_ h1 h2 hnot
    intro d hd hdf
    have hdmem : d ∈ chunks lo hi := by simp [hsplit, hd]
    rcases hone with rfl | hone
    · have hzero : failing none predicate before = 0 := by omega
      exact absurd ((isSome_answer?_iff (bounds_of_mem_chunks hdmem).2.1).mpr hdf)
        (List.countP_eq_zero.mp hzero d hd)
    · exact hone d hdmem c hc hdf ⟨m'.n, hfinds.contains, hfinds.tells.not_agrees⟩

/-! ## Two chunks that fail -/

/-- Wrong on the last number of a chunk, and on the first number of the next. -/
def wrongAtSeam (n : Int64) : Bool := isPrime n != (n == 4095 || n == 4096)

theorem not_agrees_wrongAtSeam : ¬ Agrees wrongAtSeam 4095 := by
  rw [← disagreement?_eq_none_iff]
  decide +kernel

/-- One worker comes to the end of the first chunk before the second one is handed out. -/
theorem reports_least_of_one_worker :
    ∃ m, check none 4 1 0 8191 wrongAtSeam = some (.mismatch m) ∧ m.n ≤ 4095 := by
  have hone : 0 < 1 := by decide
  have hcheck := check_eq_fault none 4 hone 0 8191 wrongAtSeam
  obtain ⟨schedule, hschedule⟩ :=
    CrossCheck.exists_follow_finish hone wrongAtSeam (CrossCheck.start none 0 8191)
  obtain ⟨handed, h⟩ := CrossCheck.sound_follow_start none wrongAtSeam 1 0 8191 schedule
  have hover : ((CrossCheck.start none 0 8191).follow 1 wrongAtSeam schedule).isOver = true := by
    rw [hschedule]
    exact CrossCheck.isOver_finish hone _
  have hsome : ((CrossCheck.start none 0 8191).follow 1 wrongAtSeam schedule).fault ≠ none := by
    intro hnone
    have hall := forall_answer?_eq_none_iff.mp ((h.fault_eq_none_iff hover).mp hnone)
    exact not_agrees_wrongAtSeam (hall 4095 (by decide) (by decide))
  obtain ⟨f, hf⟩ := Option.ne_none_iff_exists'.mp hsome
  obtain ⟨-, -, m, rfl, -⟩ := (h.possible f hf).exists_finds
  have hleast :=
    (reports_least_iff 0 8191 1 (by decide) wrongAtSeam).mpr (.inl rfl) schedule hover m hf 4095
      (by decide) (by decide) not_agrees_wrongAtSeam
  rw [← hschedule, hf] at hcheck
  exact ⟨m, hcheck, hleast⟩

/-- With two workers who go on in turn, the first number of the second chunk comes before the last
one of the first. -/
theorem reports_second_chunk :
    check none 4 2 0 8191 wrongAtSeam = some (.mismatch ⟨4096, true, false, "trial-division"⟩) ∧
      ¬ Agrees wrongAtSeam 4095 := by
  refine ⟨?_, not_agrees_wrongAtSeam⟩
  have h0 : disagreement? wrongAtSeam 0 = none := by decide +kernel
  have h1 : disagreement? wrongAtSeam 1 = none := by decide +kernel
  have h2 : disagreement? wrongAtSeam 2 = none := by decide +kernel
  have hmismatch : disagreement? wrongAtSeam 4096 =
    some ⟨4096, true, false, "trial-division"⟩ := by decide +kernel
  have hchunks : chunks 0 8191 = [⟨0, 4095⟩, ⟨4096, 8191⟩] := by decide +kernel
  let round := CrossCheck.round 2 wrongAtSeam
  have hthree : round (round (round (CrossCheck.start none 0 8191))) =
      ⟨{}, [], [⟨⟨0, 4095⟩, .comparing 2⟩,
        ⟨⟨4096, 8191⟩, .answered (some (.mismatch ⟨4096, true, false, "trial-division"⟩))⟩]⟩ := by
    simp [round, CrossCheck.start, hchunks, CrossCheck.round, CrossCheck.sweep,
      CrossCheck.step, Task.step, h0, h1, hmismatch]
  have hfour : (round (round (round (round (CrossCheck.start none 0 8191))))).fault =
      some (.mismatch ⟨4096, true, false, "trial-division"⟩) := by
    rw [hthree]
    simp [round, CrossCheck.round, CrossCheck.sweep, CrossCheck.step, Task.step, h2]
  have htwo : 0 < 2 := by decide
  have hfinish := CrossCheck.fault_finish htwo wrongAtSeam hfour
  rw [CrossCheck.finish_round, CrossCheck.finish_round, CrossCheck.finish_round,
    CrossCheck.finish_round] at hfinish
  exact (check_eq_fault none 4 htwo 0 8191 wrongAtSeam).trans hfinish

end Stopwatch.Prime
