import Mathlib.Data.List.Induction
import Stopwatch.Proofs.Session.Course
import Stopwatch.Proofs.Session.Delivery

/-!
# The numbers of runs

The updates of a session come benchmark by benchmark, and those of each benchmark are numbered from
one. `Fits` says what this means for an update and those before it: its benchmark is the current one
or a later one, and its number says how many runs of the benchmark there have been. If no two
workloads have the same name then a benchmark is known by the name as well as by the index.

All updates of a session fit those before them (`numbered_runFrom`), so those do that a display has
received at any time (`Relay.numbered_received`), which are the first of them.
-/

namespace Stopwatch.Session

/-! ## Numbered updates -/

/-- The updates of a benchmark. -/
def ofBenchmark (index : Int) (us : List Progress.Update) : List Progress.Update :=
  us.filter fun u => u.index == index

/-- An update that can be the next one after some others. -/
structure Fits (before : List Progress.Update) (u : Progress.Update) : Prop where
  index_le : ∀ v ∈ before, v.index ≤ u.index
  workload_iff : ∀ v ∈ before, v.workload = u.workload ↔ v.index = u.index
  run : u.run = (ofBenchmark u.index before).length + 1

/-- Each update fits those before it. -/
def Numbered (us : List Progress.Update) : Prop :=
  ∀ before u after, us = before ++ u :: after → Fits before u

variable {us vs : List Progress.Update} {u : Progress.Update}

theorem numbered_nil : Numbered [] := fun _ _ _ heq => absurd heq (by simp)

theorem Numbered.of_isPrefix (h : Numbered us) (hp : vs <+: us) : Numbered vs := by
  obtain ⟨later, rfl⟩ := hp
  intro before u after heq
  exact h before u (after ++ later) (by rw [heq, List.append_assoc, List.cons_append])

theorem numbered_concat_iff : Numbered (us ++ [u]) ↔ Numbered us ∧ Fits us u := by
  constructor
  · exact fun h => ⟨h.of_isPrefix (List.prefix_append us [u]), h us u [] rfl⟩
  · rintro ⟨h, hu⟩ before v after heq
    rcases after.eq_nil_or_concat with rfl | ⟨after, w, rfl⟩
    · obtain ⟨rfl, hlast⟩ := List.append_inj' heq rfl
      obtain rfl := List.singleton_inj.mp hlast
      exact hu
    · rw [List.concat_eq_append, ← List.cons_append, ← List.append_assoc] at heq
      exact h before v after (List.append_inj' heq rfl).1

/-- A first run is the first of its benchmark. -/
theorem Fits.run_eq_one_iff (h : Fits us u) : u.run = 1 ↔ ∀ v ∈ us, v.index ≠ u.index := by
  rw [h.run, ofBenchmark]
  constructor
  · intro hone v hv hindex
    have hnil : us.filter (fun v => v.index == u.index) = [] :=
      List.length_eq_zero_iff.mp (by omega)
    exact List.filter_eq_nil_iff.mp hnil v hv (beq_iff_eq.mpr hindex)
  · intro hne
    rw [List.filter_eq_nil_iff.mpr fun v hv => by simpa using hne v hv]
    rfl

/-! ## The updates of a session -/

variable {schedule : Schedule} {index : Int} {name : Text} {done : Nat}

theorem workload_of_mem_lapUpdates {samples : List Duration}
    (h : u ∈ lapUpdates schedule index name done samples) :
    u.workload = name := by
  obtain ⟨⟨d, i⟩, -, rfl⟩ := List.mem_map.mp h
  rfl

/-- The runs of a benchmark go on after the first `done`. -/
theorem Numbered.append_lapUpdates (h : Numbered us) (hindex : ∀ v ∈ us, v.index ≤ index)
    (hname : ∀ v ∈ us, v.workload = name ↔ v.index = index)
    (hdone : (ofBenchmark index us).length = done)
    (samples : List Duration) : Numbered (us ++ lapUpdates schedule index name done samples) := by
  induction samples generalizing us done with
  | nil => simpa [lapUpdates] using h
  | cons d samples ih =>
    rw [lapUpdates_cons, List.append_cons]
    generalize hu : Progress.Update.ofRun index name (done + 1) schedule.runs d = u
    obtain ⟨huindex, huname, hurun⟩ : u.index = index ∧ u.workload = name ∧ u.run = done + 1 := by
      rw [← hu]
      exact ⟨rfl, rfl, rfl⟩
    have hfits : Fits us u :=
      ⟨by rwa [huindex], by rwa [huindex, huname], by rw [hurun, huindex, hdone]⟩
    refine ih (numbered_concat_iff.mpr ⟨h, hfits⟩) ?_ ?_ ?_
    · exact List.forall_mem_append.mpr ⟨hindex, by simp [huindex]⟩
    · exact List.forall_mem_append.mpr ⟨hname, by simp [huindex, huname]⟩
    · rw [ofBenchmark] at hdone ⊢
      rw [List.filter_append, List.length_append, hdone]
      simp [huindex]

/-- Further benchmarks follow, with other names than those before. -/
theorem Numbered.append_runUpdates {rs : List Result} (h : Numbered us)
    (hrs : (rs.map Result.name).Nodup)
    (hus : ∀ v ∈ us, v.index < index ∧ v.workload ∉ rs.map Result.name) :
    Numbered (us ++ runUpdates schedule index rs) := by
  induction rs generalizing us index with
  | nil => simpa [runUpdates] using h
  | cons r rs ih =>
    obtain ⟨hr, hrs⟩ := List.nodup_cons.mp hrs
    have hindex : ∀ v ∈ us, v.index ≠ index := fun v hv => (hus v hv).1.ne
    have hname : ∀ v ∈ us, v.workload ≠ r.name := fun v hv heq => (hus v hv).2 (by simp [heq])
    rw [runUpdates, ← List.append_assoc]
    refine ih (h.append_lapUpdates ?_ ?_ ?_ _) hrs ?_
    · exact fun v hv => (hus v hv).1.le
    · exact fun v hv => ⟨fun heq => absurd heq (hname v hv), fun heq => absurd heq (hindex v hv)⟩
    · rw [ofBenchmark, List.filter_eq_nil_iff.mpr fun v hv => by simpa using hindex v hv]
      rfl
    · refine List.forall_mem_append.mpr ⟨fun v hv => ?_, fun v hv => ?_⟩
      · exact ⟨(hus v hv).1.trans (Int.lt_succ index),
          fun hmem => (hus v hv).2 (List.mem_cons_of_mem _ hmem)⟩
      · rw [(mem_lapUpdates hv).1, workload_of_mem_lapUpdates hv]
        exact ⟨Int.lt_succ index, hr⟩

variable {σ : Type} {S : Surroundings σ} {ws : List Workload} {s : σ}

/-- The results bear the names of the workloads. -/
theorem name_results (S : Surroundings σ) (schedule : Schedule)
    (ws : List Workload) (index : Int) (s : σ) :
    (runFrom S schedule index ws s).results.map Result.name = ws.map Workload.name := by
  induction ws generalizing index s with
  | nil => rfl
  | cons w ws ih =>
    rcases h : S.check s with ⟨_ | cause, checked⟩
    · rw [runFrom_of_not_ended h, List.map_cons, List.map_cons, ih, Result.name, name_run]
    · rw [runFrom_of_ended h, List.map_cons, List.map_cons, ih, Result.name]

/-- **The updates of a session are numbered**, if no two of its workloads have the same name. -/
theorem numbered_runFrom (S : Surroundings σ) (schedule : Schedule)
    (hws : (ws.map Workload.name).Nodup) (index : Int) (s : σ) :
    Numbered (runUpdates schedule index (runFrom S schedule index ws s).results) := by
  refine numbered_nil.append_runUpdates ?_ (List.forall_mem_nil _)
  rwa [name_results]

/-! ## What a display has received -/

namespace Relay

variable {m : Relay σ}

theorem Continues.isPrefix {waits left : List Nat} {t : σ}
    (h : m.Continues S schedule ws s waits t left) :
    m.completed <+: runUpdates schedule 0 (Session.run S.delayed schedule ws (s, waits)).results :=
  ⟨_, (congrArg Prod.fst h).symm⟩

/-- What has been completed at any time are the first runs of the session with some waits. -/
theorem exists_completed_isPrefix (hsteps : Steps S schedule (start ws s) m) :
    ∃ waits, m.completed <+: runUpdates schedule 0
      (Session.run S.delayed schedule ws (s, waits)).results := by
  have h := follows_of_steps hsteps
  rw [Follows] at h
  split at h
  · obtain ⟨waits, n, h⟩ := h
    exact ⟨_, (h 0 []).isPrefix⟩
  · obtain ⟨waits, h⟩ := h
    exact ⟨_, (h []).isPrefix⟩

/-- **The updates that a display has received at any time are numbered.** -/
theorem numbered_received (hS : S.EndLasts s) (hws : (ws.map Workload.name).Nodup)
    (hsteps : Steps S schedule (start ws s) m) : Numbered m.received := by
  obtain ⟨waits, hcompleted⟩ := exists_completed_isPrefix hsteps
  have hsent : m.sent <+: m.completed := ((sound_start S ws s).steps hS hsteps).kept.isPrefix
  have hreceived : m.received <+: m.sent := List.prefix_append _ _
  exact (numbered_runFrom S.delayed schedule hws 0 (s, waits)).of_isPrefix
    (hreceived.trans (hsent.trans hcompleted))

end Relay

end Stopwatch.Session
