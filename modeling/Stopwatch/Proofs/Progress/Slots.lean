import Mathlib.Data.Int.Notation
import Mathlib.Data.List.Induction
import Mathlib.Data.Nat.Notation
import Mathlib.Tactic.SplitIfs
import Stopwatch.Benchmark

/-!
# The slots of a session

A tracker that follows updates keeps a slot for each benchmark of the session. A slot holds what its
benchmark was last given, brought into the range from zero to one, and zero if it was given nothing
(`slots_follow`). So the progress of the session is the average of these values, whatever came in
between (`average_follow_eq`).
-/

namespace Stopwatch.Progress

/-- The tracker after some updates. -/
def Tracker.follow (t : Tracker) (us : List (Timed Update)) : Tracker :=
  us.foldl (fun t u => (t.update u.time u.value).1) t

variable {x : Float} {n : ℤ} {us : List (Timed Update)}

theorem follow_concat (t : Tracker) (us : List (Timed Update)) (u : Timed Update) :
    t.follow (us ++ [u]) = ((t.follow us).update u.time u.value).1 := by
  simp [Tracker.follow]

/-- The value that a benchmark was last given. -/
def lastValue (us : List (Timed Update)) (i : ℤ) : Option Float :=
  (us.filter (·.value.index == i)).getLast?.map (·.value.value)

theorem lastValue_concat (us : List (Timed Update)) (u : Timed Update) (i : ℤ) :
    lastValue (us ++ [u]) i = if u.value.index = i then some u.value.value else lastValue us i := by
  unfold lastValue
  rw [List.filter_append]
  by_cases h : u.value.index = i <;> simp [h]

theorem exists_of_lastValue {i : ℤ} (h : lastValue us i = some x) :
    ∃ u ∈ us, u.value.index = i ∧ u.value.value = x := by
  obtain ⟨u, hu, rfl⟩ := Option.map_eq_some_iff.mp h
  obtain ⟨hmem, hindex⟩ := List.mem_filter.mp (List.mem_of_getLast? hu)
  exact ⟨u, hmem, by simpa using hindex, rfl⟩

/-- What a slot holds that was last given a value, if it was given one. -/
def slotOf (given : Option Float) : Float := given.elim 0.0 clampUnit

theorem update_state (t : Tracker) (now : Moment) (u : Update) :
    (t.update now u).1.state = t.state.set u.index u.value := by
  unfold Tracker.update Tracker.record
  dsimp only
  split_ifs <;> rfl

/-- **A slot holds what its benchmark was last given.** -/
theorem slots_follow (n : ℤ) (begun : Moment) (us : List (Timed Update)) :
    ((Tracker.start n begun).follow us).state.slots =
      (List.range n.toNat).map fun (i : ℕ) => slotOf (lastValue us i) := by
  induction us using List.reverseRecOn with
  | nil =>
    show List.replicate n.toNat 0.0 = _
    refine List.ext_getElem (by simp) fun i hi _ => ?_
    simp [lastValue, slotOf]
  | append_singleton us u ih =>
    rw [follow_concat, update_state, State.set]
    split_ifs with hneg
    · rw [ih]
      refine List.map_congr_left fun i _ => ?_
      rw [lastValue_concat, if_neg (by omega)]
    · refine List.ext_getElem (by simp [ih]) fun i hi _ => ?_
      rw [List.getElem_set, List.getElem_map, List.getElem_range, lastValue_concat]
      by_cases hindex : u.value.index.toNat = i
      · rw [if_pos hindex, if_pos (by omega)]
        rfl
      · rw [if_neg hindex, if_neg (by omega)]
        simp [ih]

/-- The progress of a session after some updates: the average of what its benchmarks were last
given. -/
def progressAfter (n : ℤ) (us : List (Timed Update)) : Float :=
  ((List.range n.toNat).map fun (i : ℕ) => slotOf (lastValue us i)).foldl
    (· + ·) 0.0 / n.toNat.toFloat

theorem average_follow_eq (hn : 1 ≤ n) (begun : Moment) (us : List (Timed Update)) :
    ((Tracker.start n begun).follow us).state.average = progressAfter n us := by
  have hlength : ((Tracker.start n begun).follow us).state.slots.length = n.toNat := by
    rw [slots_follow, List.length_map, List.length_range]
  have hne : ¬ ((Tracker.start n begun).follow us).state.slots.isEmpty = true := by
    rw [List.isEmpty_iff_length_eq_zero]
    omega
  rw [State.average, if_neg hne, hlength, slots_follow]
  rfl

end Stopwatch.Progress
