import Mathlib.Data.List.Induction
import Mathlib.Tactic.SplitIfs
import Stopwatch.Dashboard.Live
import Stopwatch.Proofs.Dashboard.Outcome
import Stopwatch.Proofs.Session.Numbering

/-!
# The current benchmark

The figures and the chart both show the runs of the current benchmark, but each has its own way to
tell that a new one has begun: the figures look for another name of the workload, the chart for a
first run. What they hold is kept apart, and is reset apart.

As long as the messages about runs fit one after the other (`Session.Numbered`), the two agree.
`ShowsRuns` says what they hold then: the run times of the benchmark that the last message belongs
to, all of them in the figures and the newest ones in the chart. A message about a run keeps it
(`ShowsRuns.progress`), and every other message leaves alone what it is about (`held_deliver`). With
the messages of a session it follows that the panels always show one benchmark
(`panels_show_current`).
-/

namespace Stopwatch

/-- The completed run that a message is about. -/
def RunProgress.update (p : RunProgress) : Progress.Update :=
  { index := p.index, workload := p.workload, run := p.run, runs := p.runs,
    sample := p.sample, value := p.value }

namespace Dashboard

/-! ## Messages about runs -/

/-- The runs that messages are about, in order. -/
def runs (messages : List (Timed Message)) : List RunProgress :=
  messages.filterMap fun m =>
    match m.value with
    | .progress p => some p
    | _ => none

/-- The runs that have been told, in order. -/
def reported (es : List Event) : List RunProgress :=
  es.filterMap fun e =>
    match e with
    | .report _ _ (.progress p) => some p
    | _ => none

/-- The runs of the benchmark that the last one belongs to. -/
def current (ps : List RunProgress) : List RunProgress :=
  match ps.getLast? with
  | none => []
  | some p => ps.filter fun q => q.index == p.index

theorem exists_progress_of_reported {e : Event} (h : reported [e] ≠ []) :
    ∃ time g p, e = .report time g (.progress p) := by
  unfold reported at h
  cases e with
  | input time i => exact absurd rfl h
  | report time g r =>
    cases r with
    | progress p => exact ⟨time, g, p, rfl⟩
    | _ => exact absurd rfl h

/-- There is a message about each update of a session. -/
theorem update_runs (tracker : Progress.Tracker) (told : List (Timed Notice)) :
    (runs (progressMessages tracker told)).map RunProgress.update = Session.updates told := by
  induction told generalizing tracker with
  | nil => rfl
  | cons n told ih =>
    rw [progressMessages]
    split
    · next u hu =>
      have hhead : Session.updates (n :: told) = u :: Session.updates told := by
        simp only [Session.updates, List.filterMap_cons, hu]
      rw [hhead, ← ih (tracker.update n.time u).1]
      rfl
    · have hhead : Session.updates (n :: told) = Session.updates told := by
        simp only [Session.updates, List.filterMap_cons]
      rw [hhead, ih]

variable {ps : List RunProgress} {p : RunProgress}

theorem length_ofBenchmark_update (index : Int) (ps : List RunProgress) :
    (Session.ofBenchmark index (ps.map RunProgress.update)).length =
      (ps.filter fun q => q.index == index).length := by
  rw [Session.ofBenchmark, List.filter_map, List.length_map]
  rfl

@[simp] theorem current_nil : current [] = [] := rfl

theorem current_concat (ps : List RunProgress) (p : RunProgress) :
    current (ps ++ [p]) = (ps.filter fun q => q.index == p.index) ++ [p] := by
  simp [current]

/-- A run that fits goes on with the current benchmark, or it is the first run of another. -/
theorem continues_or_begins (h : Session.Numbered ((ps ++ [p]).map RunProgress.update)) :
    (p.run ≠ 1 ∧ (∃ q, ps.getLast? = some q ∧ q.workload = p.workload) ∧
        current (ps ++ [p]) = current ps ++ [p]) ∨
      (p.run = 1 ∧ (∀ q ∈ ps.getLast?, q.workload ≠ p.workload) ∧ current (ps ++ [p]) = [p]) := by
  rw [List.map_append, List.map_singleton, Session.numbered_concat_iff] at h
  obtain ⟨hps, hfits⟩ := h
  have hone : p.run = 1 ↔ ∀ q ∈ ps, q.index ≠ p.index := by
    rw [show p.run = p.update.run from rfl, hfits.run_eq_one_iff, List.forall_mem_map]
    rfl
  have hle : ∀ q ∈ ps, q.index ≤ p.index := fun q hq => hfits.index_le _ (List.mem_map_of_mem hq)
  have hname : ∀ q ∈ ps, q.workload = p.workload ↔ q.index = p.index :=
    List.forall_mem_map.mp hfits.workload_iff
  rcases ps.eq_nil_or_concat with rfl | ⟨qs, q, rfl⟩
  · exact .inr ⟨hone.mpr (List.forall_mem_nil _), by simp, current_concat [] p⟩
  rw [List.concat_eq_append] at *
  have hq : q ∈ qs ++ [q] := by simp
  have hlast : (qs ++ [q]).getLast? = some q := by simp
  by_cases hindex : q.index = p.index
  · refine .inl ⟨fun h => hone.mp h q hq hindex, ⟨q, hlast, (hname q hq).mpr hindex⟩, ?_⟩
    rw [current_concat, current_concat, List.filter_append, hindex]
    simp [hindex]
  · -- The runs before the last one belong to its benchmark or to earlier ones.
    rw [List.map_append, List.map_singleton, Session.numbered_concat_iff] at hps
    have hqs : ∀ r ∈ qs, r.index ≤ q.index := fun r hr => hps.2.index_le _ (List.mem_map_of_mem hr)
    have hlt : q.index < p.index := lt_of_le_of_ne (hle q hq) hindex
    have hne : ∀ r ∈ qs ++ [q], r.index ≠ p.index :=
      List.forall_mem_append.mpr ⟨fun r hr => ((hqs r hr).trans_lt hlt).ne, by simpa using hindex⟩
    refine .inr ⟨hone.mpr hne, ?_, ?_⟩
    · rw [hlast]
      rintro _ ⟨⟩ hworkload
      exact hindex ((hname q hq).mp hworkload)
    · rw [current_concat, List.filter_eq_nil_iff.mpr fun r hr => by simpa using hne r hr]
      rfl

/-- The last run's number says how many runs of its benchmark there are. -/
theorem length_current (h : Session.Numbered ((ps ++ [p]).map RunProgress.update)) :
    ((current (ps ++ [p])).length : Int) = p.run := by
  rw [List.map_append, List.map_singleton, Session.numbered_concat_iff] at h
  have hrun : p.run = (Session.ofBenchmark p.index (ps.map RunProgress.update)).length + 1 :=
    h.2.run
  rw [hrun, length_ofBenchmark_update, current_concat, List.length_append, List.length_singleton]
  rfl

/-! ## What the panels hold -/

/-- Everything that the figures and the chart hold of runs, and the setup. -/
def held (b : Dashboard) : Setup × Text × List Float × Summary × Ring :=
  (b.setup, b.figures.workload, b.figures.samples, b.figures.summary, b.chart.samples)

/-- Only a run or a restart changes what the figures and the chart hold of runs. -/
theorem held_deliver {b : Dashboard} {e : Event} (hrun : reported [e] = []) (hr : ¬ Restarts e) :
    (b.deliver e).held = b.held := by
  cases e with
  | input time i =>
    cases i with
    | key name =>
      simp only [deliver, Input.message, update]
      simp only [Restarts] at hr
      cases hk : Action.ofKey? name with
      | none => rfl
      | some action =>
        cases action with
        | restart => exact absurd hk hr
        | _ => rfl
    | resize w =>
      simp only [deliver, Input.message, update, Dashboard.resize, held, Chart.fit]
      split_ifs <;> rfl
    | _ => rfl
  | report time g r =>
    cases r with
    | progress p => exact absurd hrun (by simp [reported])
    | complete exit results =>
      simp only [deliver, Report.message, update]
      split_ifs <;> rfl
    | cutShort cause =>
      simp only [deliver, Report.message, update]
      split_ifs <;> rfl
    | _ => simp only [deliver, Report.message, update, held]

/-- The run times of the current benchmark, in nanoseconds over the length of the unit. -/
def times (setup : Setup) (ps : List RunProgress) : List Float :=
  (current ps).map fun p => p.sample.toFloat / setup.presentation.unit.scale.toFloat

/-- The figures and the chart hold the current benchmark, the chart as much of it as it has room
for. -/
structure ShowsRuns (setup : Setup) (ps : List RunProgress) (b : Dashboard) : Prop where
  setup_eq : b.setup = setup
  workload : ∀ p ∈ ps.getLast?, b.figures.workload = p.workload
  figures : b.figures.samples = times setup ps
  summary : b.figures.summary = Summary.ofSamples (times setup ps)
  chart : b.chart.samples.toList = Ring.newest 256 (times setup ps)
  capacity : b.chart.samples.capacity = 256

variable {setup : Setup} {b c : Dashboard}

theorem showsRuns_fresh (setup : Setup) (opened : Moment) :
    ShowsRuns setup [] (fresh setup opened) where
  setup_eq := by simp only [fresh]
  workload := by simp
  figures := by simp only [fresh, times, current_nil, List.map_nil]
  summary := by simp only [fresh, times, current_nil, List.map_nil]; rfl
  chart := by simp only [fresh, times, current_nil, List.map_nil, Ring.toList_empty]; rfl
  capacity := by simp only [fresh, Ring.capacity_empty]; rfl

theorem ShowsRuns.of_held_eq (h : ShowsRuns setup ps b) (hheld : c.held = b.held) :
    ShowsRuns setup ps c := by
  simp only [held, Prod.mk.injEq] at hheld
  obtain ⟨h1, h2, h3, h4, h5⟩ := hheld
  exact ⟨h1 ▸ h.setup_eq, h2 ▸ h.workload, h3 ▸ h.figures, h4 ▸ h.summary,
    h5 ▸ h.chart, h5 ▸ h.capacity⟩

/-- **Both panels take a run for the first of a benchmark, or neither does.** -/
theorem ShowsRuns.progress (h : ShowsRuns setup ps b)
    (hp : Session.Numbered ((ps ++ [p]).map RunProgress.update)) (now : Moment) :
    ShowsRuns setup (ps ++ [p]) (b.progress now p) := by
  have hunit : b.unit = setup.presentation.unit := by rw [unit, h.setup_eq]
  have hfigures : (b.figures.add b.unit p).samples = times setup (ps ++ [p]) ∧
      (b.progress now p).chart.samples.toList = Ring.newest 256 (times setup (ps ++ [p])) ∧
      (b.progress now p).chart.samples.capacity = 256 := by
    rcases continues_or_begins hp with ⟨hrun, ⟨q, hlast, hname⟩, hcurrent⟩ | ⟨hrun, hname, hcurrent⟩
    · have htimes : times setup (ps ++ [p]) = times setup ps ++
          [setup.presentation.unit.count p.sample] := by
        rw [times, hcurrent, List.map_append]
        rfl
      have hworkload : p.workload = b.figures.workload :=
        (hname.symm.trans (h.workload q hlast).symm)
      refine ⟨?_, ?_, ?_⟩
      · simp only [Figures.add, hworkload, hunit, h.figures, htimes]
        simp
      · simp only [Dashboard.progress, Chart.add, hunit, htimes]
        simp [hrun, Ring.toList_push, h.capacity, h.chart, Ring.newest_newest_append]
      · simp [Dashboard.progress, Chart.add, hrun, h.capacity]
    · have htimes : times setup (ps ++ [p]) = [setup.presentation.unit.count p.sample] := by
        rw [times, hcurrent]
        rfl
      refine ⟨?_, ?_, ?_⟩
      · have hearlier :
            (if p.workload == b.figures.workload then b.figures.samples else []) = [] := by
          cases hlast : ps.getLast? with
          | none => simp [h.figures, List.getLast?_eq_none_iff.mp hlast, times]
          | some q => simp [h.workload q hlast, (hname q hlast).symm]
        simp only [Figures.add, hearlier, hunit, htimes, List.nil_append]
      · simp only [Dashboard.progress, Chart.add, hunit, htimes]
        simp [hrun, Ring.toList_push, h.capacity, Chart.begin]
      · simp [Dashboard.progress, Chart.add, Chart.begin, hrun, h.capacity]
  obtain ⟨hsamples, hchart, hcapacity⟩ := hfigures
  have hsummary := Figures.summed_add b.figures b.unit p
  rw [Figures.Summed, hsamples] at hsummary
  exact ⟨h.setup_eq, by simp [Dashboard.progress, Figures.add], hsamples,
    hsummary, hchart, hcapacity⟩

/-- All messages: what the panels hold lasts through a history without a restart. -/
theorem showsRuns_deliverAll (setup : Setup) (opened : Moment) {es : List Event}
    (hr : ∀ e ∈ es, ¬ Restarts e) (hes : Session.Numbered ((reported es).map RunProgress.update)) :
    ShowsRuns setup (reported es) ((fresh setup opened).deliverAll es) := by
  induction es using List.reverseRecOn with
  | nil => exact showsRuns_fresh setup opened
  | append_singleton es e ih =>
    obtain ⟨hres, hre⟩ := List.forall_mem_append.mp hr
    have hreported : reported (es ++ [e]) = reported es ++ reported [e] := List.filterMap_append
    have hdeliver : (fresh setup opened).deliverAll (es ++ [e]) =
        ((fresh setup opened).deliverAll es).deliver e :=
      deliverAll_append _ es [e]
    have hprefix : (reported es).map RunProgress.update <+:
        (reported (es ++ [e])).map RunProgress.update := by
      rw [hreported]
      exact (List.prefix_append _ _).map _
    have hshows := ih hres (hes.of_isPrefix hprefix)
    rw [hdeliver]
    by_cases hrun : reported [e] = []
    · rw [hreported, hrun, List.append_nil]
      exact hshows.of_held_eq (held_deliver hrun (hre e (List.mem_singleton_self e)))
    · obtain ⟨time, g, p, rfl⟩ := exists_progress_of_reported hrun
      rw [hreported] at hes ⊢
      exact hshows.progress hes time

/-- **The figures and the chart show the same benchmark.** The messages are those about the updates
that a display has received from a session at some time, however the two went along, or the first of
these messages; before, between and after them keys may be pressed, though not the one that restarts
the session, and anything else may be delivered. Then the figures hold the run times of the
benchmark that the last message belongs to, all of them in order and none of another benchmark, in
nanoseconds over the length of the unit, and the summary of these; the chart holds the newest 256 of
the same. -/
theorem panels_show_current {σ : Type} (S : Surroundings σ) (s : σ)
    (hS : S.EndLasts s) (setup : Setup) (hnames : (setup.workloads.map Workload.name).Nodup)
    (opened begun : Moment) (m : Session.Relay σ)
    (hsteps : Session.Relay.Steps S setup.schedule (.start setup.workloads s) m)
    (told : List (Timed Notice))
    (htold : Session.updates told = m.received) (es : List Event) (hr : ∀ e ∈ es, ¬ Restarts e)
    (hes : reported es <+: runs (progressMessages (.start setup.workloads.length begun) told)) :
    let b := (fresh setup opened).deliverAll es
    let shown := (current (reported es)).map fun p => p.sample.toFloat /
      setup.presentation.unit.scale.toFloat
    b.figures.samples = shown ∧ b.figures.summary = Summary.ofSamples shown ∧
      b.chart.samples.toList = Ring.newest 256 shown ∧
        b.chart.samples.toList.length = min 256 shown.length ∧
      ∀ p ∈ (reported es).getLast?, b.figures.workload = p.workload ∧
        (shown.length : Int) = p.run := by
  intro b shown
  have hupdates : (reported es).map RunProgress.update <+: m.received := by
    rw [← htold, ← update_runs]
    exact hes.map _
  have hnumbered := (Session.Relay.numbered_received hS hnames hsteps).of_isPrefix hupdates
  have hshows := showsRuns_deliverAll setup opened hr hnumbered
  refine ⟨hshows.figures, hshows.summary, hshows.chart, ?_, fun p hp => ?_⟩
  · rw [hshows.chart, Ring.length_newest]
    rfl
  · obtain ⟨ps, hps⟩ := List.getLast?_eq_some_iff.mp hp
    refine ⟨hshows.workload p hp, ?_⟩
    simp only [shown, List.length_map, hps]
    exact length_current (hps ▸ hnumbered)

/-- Two benchmarks of two runs each, reported in milliseconds on a dashboard that is paused after
the first run and resized after the second. At the end the panels hold the run times of the second
benchmark only. -/
theorem panels_show_current_of_two_benchmarks :
    let second : Plan := .each fun i => { takes := if i = 0 then 7000000 else 8500000 }
    let setup : Setup :=
      { workloads := [{ name := "first", plan := fun _ => .always { takes := 5000000 } },
          { name := "second", plan := fun _ => second }]
        settings := { runs := 2, iterations := 1 }
        presentation := { unit := .milliseconds } }
    ∃ es, es.length = 6 ∧ (reported es).map (·.run) = [1, 2, 1, 2] ∧
      ((fresh setup .origin).deliverAll es).figures.samples = [7.0, 8.5] ∧
      ((fresh setup .origin).deliverAll es).figures.summary.mean = 7.75 ∧
      ((fresh setup .origin).deliverAll es).chart.samples.toList = [7.0, 8.5] := by
  intro second setup
  obtain ⟨m, hsteps, -, -, hreceived⟩ :=
    Session.Relay.exists_steps_run World.surroundings setup.schedule setup.workloads {}
  have htold :
      (Session.updates
          (Session.run World.surroundings setup.schedule setup.workloads {}).notices).map
          (fun u => (u.index, u.run, u.sample)) =
        ([(0, 1, 5000000), (0, 2, 5000000), (1, 1, 7000000), (1, 2, 8500000)] :
          List (Int × Int × Duration)) := by
    decide +kernel
  generalize (Session.run World.surroundings setup.schedule setup.workloads {}).notices =
    told at hreceived htold
  have hshows :=
    panels_show_current World.surroundings {} (World.lawful_surroundings rfl).endLasts setup
      (by decide) .origin .origin m hsteps told hreceived.symm
  rw [← update_runs (.start setup.workloads.length .origin) told, List.map_map] at htold
  generalize runs (progressMessages (.start setup.workloads.length .origin) told) =
    messages at hshows htold
  obtain ⟨p, _, rfl, hp, htold⟩ := List.map_eq_cons_iff.mp htold
  obtain ⟨q, _, rfl, hq, htold⟩ := List.map_eq_cons_iff.mp htold
  obtain ⟨r, _, rfl, hr, htold⟩ := List.map_eq_cons_iff.mp htold
  obtain ⟨t, rest, rfl, ht, -⟩ := List.map_eq_cons_iff.mp htold
  simp only [Function.comp_apply, RunProgress.update, Prod.mk.injEq] at hp hq hr ht
  have hcurrent : current [p, q, r, t] = [r, t] := by simp [current, hp.1, hq.1, hr.1, ht.1]
  let es : List Event := [.report .origin 0 (.progress p), .input .origin (.key "p"),
    .report .origin 0 (.progress q), .input .origin (.resize ⟨80, 24⟩),
    .report .origin 0 (.progress r),
    .report .origin 0 (.progress t)]
  have hreported : reported es = [p, q, r, t] := rfl
  have hrestart : ∀ e ∈ es, ¬ Restarts e := by
    simp only [es, List.forall_mem_cons, Restarts]
    exact ⟨id, by decide, id, id, id, id, List.forall_mem_nil _⟩
  obtain ⟨hfigures, hsummary, hchart, -⟩ := hshows es hrestart ⟨rest, rfl⟩
  have hshown : (current (reported es)).map
      (fun p => p.sample.toFloat / setup.presentation.unit.scale.toFloat) = [7.0, 8.5] := by
    rw [hreported, hcurrent, List.map_cons, List.map_singleton, hr.2.2, ht.2.2]
    decide +kernel
  have hsorted : Summary.sorted [7.0, 8.5] = [7.0, 8.5] := by
    rw [Summary.sorted, if_neg (by decide +kernel)]
    exact List.mergeSort_of_pairwise (by decide +kernel)
  have hmean : (Summary.ofSamples [7.0, 8.5]).mean = 7.75 := by
    rw [Summary.ofSamples_eq, hsorted]
    decide +kernel
  rw [hshown] at hfigures hsummary hchart
  refine ⟨es, rfl, ?_, hfigures, hsummary ▸ hmean,
    hchart.trans (Ring.newest_of_length_le (by simp))⟩
  rw [hreported, List.map_cons, List.map_cons, List.map_cons, List.map_singleton,
    hp.2.1, hq.2.1, hr.2.1, ht.2.1]

end Dashboard

end Stopwatch
