import Stopwatch.Presentation.ProgressLine
import Stopwatch.Proofs.Progress.Slots

/-!
# Refreshing the progress line

The display of a session waits for updates and for ticks, which come in any order. It keeps only the
newest update and the progress it led to, and brings the line up to date when a tick comes or no
update can come any more, though only if there was an update since the last time. So several updates
may share one text of the line.

`Tells` says what the display knows after the updates it has received: the progress after all of
them, and the text that belongs to the newest one (`lineAfter`), which is the last text of the line
unless it is still to be shown. An update keeps this (`Tells.receive`), and so does a refresh
(`Tells.refresh`). It follows that no text is out of date, that none is shown twice and that the
last one is not lost, in whatever order updates and ticks come (`line_up_to_date`). A display that
is played with given moments takes one of these orders (`play_eq_takeAll`).

What can be read from a text is said apart from how it is made: `IsLine` lists its parts, and `Says`
which update and which progress they are about. The text that belongs to the newest update says so
(`says_of_lineAfter`).
-/

namespace Stopwatch.Progress

/-! ## Turns -/

/-- What the display can find next: an update, a tick, or that no update can come any more. -/
inductive Turn where
  | update (u : Timed Update)
  | tick
  | close

/-- The updates that were received in some turns. -/
def received (turns : List Turn) : List (Timed Update) :=
  turns.filterMap fun t =>
    match t with
    | .update u => some u
    | _ => none

theorem received_append (turns later : List Turn) :
    received (turns ++ later) = received turns ++ received later :=
  List.filterMap_append

/-- The text that shows the newest of some updates, with the progress of the session after all of
them. -/
def lineAfter (benchmarks : Int) (begun : Moment) (us : List (Timed Update)) : Option Text :=
  us.getLast?.map fun u =>
    let t := (Tracker.start benchmarks begun).follow us
    line u.value
      { index := u.value.index, value := u.value.value, average := t.state.average,
        left := t.left } (1 < benchmarks)

variable {benchmarks : Int} {begun : Moment} {us : List (Timed Update)}
    {u : Timed Update} {text : Text}

theorem lineAfter_concat (benchmarks : Int) (begun : Moment)
    (us : List (Timed Update)) (u : Timed Update) :
    lineAfter benchmarks begun (us ++ [u]) =
      some (line u.value (((Tracker.start benchmarks begun).follow us).update u.time u.value).2
      (1 < benchmarks)) := by
  rw [lineAfter, List.getLast?_concat, Option.map_some, follow_concat]
  rfl

theorem exists_lineAfter (benchmarks : Int) (begun : Moment) (h : us ≠ []) :
    ∃ text, lineAfter benchmarks begun us = some text := by
  obtain ⟨us, u, rfl⟩ := us.eq_nil_or_concat.resolve_left h
  exact ⟨_, List.concat_eq_append ▸ lineAfter_concat benchmarks begun us u⟩

/-! ## What a text says -/

/-- A text of the line about an update, in a session at some progress with some time left: the
workload, the run among those that are planned, the place of the benchmark if there are several, a
bar with a full cell for each fortieth of the progress, the progress in percent and the time
left. -/
def IsLine (several : Bool) (u : Update) (progress : Float)
    (left : Duration) (text : Text) : Prop :=
  let filled := min 40 (Binary.truncInt64 (clampUnit progress * 40.0)).toInt.toNat
  text = Text.concat
    [" ", if u.workload = ∅ then "Benchmarking" else u.workload,
      if 0 < u.runs then Text.concat [" run ", Text.ofInt u.run, "/", Text.ofInt u.runs] else ∅,
      if several then Text.concat [" (benchmark ", Text.ofInt (u.index + 1), ")"] else ∅,
      " [", Text.replicate filled "█", Text.replicate (40 - filled) "░", "] ",
      (FloatText.fixed 1 (clampUnit progress * 100.0)).padLeft 5, "% ETA: ", leftText left]

/-- The text is about the newest of some updates, and about the session after all of them: its
progress is the average of what the benchmarks were last given, and the time left is the tracker's
estimate. -/
def Says (benchmarks : Int) (begun : Moment) (us : List (Timed Update)) (text : Text) : Prop :=
  ∃ u, us.getLast? = some u ∧
    IsLine (1 < benchmarks) u.value (progressAfter benchmarks us)
      ((Tracker.start benchmarks begun).follow us).left text

/-- As many cells are full as are not left empty. -/
theorem bar_eq (progress : Float) (length : Nat) :
    let filled := min length (Binary.truncInt64 (clampUnit progress * length.toFloat)).toInt.toNat
    bar progress length =
      Text.replicate filled "█" ++ Text.replicate (length - filled) "░" := by
  unfold bar
  generalize (Binary.truncInt64 (clampUnit progress * length.toFloat)).toInt.toNat = filled
  have hempty : length - min length filled = length - filled := by omega
  dsimp only
  rw [Nat.min_comm, hempty]

/-- **The line has the parts that are listed.** -/
theorem isLine_line (u : Update) (s : Snapshot) (several : Bool) :
    IsLine several u s.average s.left (line u s several) := by
  have hbracket : (" [" : Text) = " " ++ "[" := rfl
  simp only [IsLine, line, barLine, bar_eq, hbracket, Text.isEmpty_iff, Text.concat_cons,
    Text.concat_nil, Text.append_empty, Text.append_assoc]
  rfl

theorem says_of_lineAfter (h : 1 ≤ benchmarks) (htext : lineAfter benchmarks begun us = some text) :
    Says benchmarks begun us text := by
  obtain ⟨u, hu, rfl⟩ := Option.map_eq_some_iff.mp htext
  refine ⟨u, hu, ?_⟩
  rw [← average_follow_eq h begun us]
  exact isLine_line ..

namespace Display

/-- Takes a turn. -/
def take (d : Display) : Turn → Display
  | .update u => d.receive u.time u.value
  | .tick | .close => d.refresh

def takeAll (d : Display) (turns : List Turn) : Display := turns.foldl take d

/-- The line gets a text in a turn. -/
def Writes (d : Display) (t : Turn) : Prop := (d.take t).shown ≠ d.shown

instance (d : Display) (t : Turn) : Decidable (d.Writes t) := inferInstanceAs (Decidable (_ ≠ _))

theorem takeAll_append (d : Display) (turns later : List Turn) :
    d.takeAll (turns ++ later) = (d.takeAll turns).takeAll later := List.foldl_append

variable {d : Display} {t : Turn}

/-! ## One turn -/

theorem refresh_of_not_fresh (h : d.fresh = false) : d.refresh = d := by
  rw [refresh, h]

/-- What the display knows after some updates. -/
structure Tells (benchmarks : Int) (begun : Moment) (us : List (Timed Update))
    (d : Display) : Prop where
  tracker : d.tracker = (Tracker.start benchmarks begun).follow us
  several : d.several = decide (1 < benchmarks)
  last : d.last.map (fun (u, s) => line u s d.several) = lineAfter benchmarks begun us
  /-- A text was shown for each update at most, and one is to come if the newest update is not
  shown. -/
  length_le : d.shown.length + d.fresh.toNat ≤ us.length
  shown : d.fresh = false → d.shown.getLast? = lineAfter benchmarks begun us

theorem tells_start (benchmarks : Int) (begun : Moment) :
    Tells benchmarks begun [] (start benchmarks begun) :=
  ⟨rfl, rfl, rfl, Nat.le_refl 0, fun _ => rfl⟩

theorem Tells.receive (h : Tells benchmarks begun us d) (u : Timed Update) :
    Tells benchmarks begun (us ++ [u]) (d.receive u.time u.value) where
  tracker := by rw [follow_concat, ← h.tracker]; rfl
  several := h.several
  last := by rw [lineAfter_concat, ← h.tracker, ← h.several]; rfl
  length_le := by
    have hle := h.length_le
    simp only [Display.receive, List.length_append, List.length_singleton, Bool.toNat_true]
    omega
  shown hfresh := absurd hfresh (by simp [Display.receive])

/-- A refresh changes nothing, or it shows the newest update. -/
theorem Tells.refresh_cases (h : Tells benchmarks begun us d) :
    d.fresh = false ∧ d.refresh = d ∨
      ∃ text, lineAfter benchmarks begun us = some text ∧
        d.fresh = true ∧ d.refresh = { d with fresh := false, shown := d.shown ++ [text] } := by
  cases hfresh : d.fresh with
  | false => exact .inl ⟨rfl, refresh_of_not_fresh hfresh⟩
  | true =>
    -- There is something new, so an update has been received.
    have hlength := h.length_le
    rw [hfresh, Bool.toNat_true] at hlength
    have hne : us ≠ [] := List.length_pos_iff.mp (by omega)
    obtain ⟨text, htext⟩ := exists_lineAfter benchmarks begun hne
    have hlast := h.last
    rw [htext] at hlast
    obtain ⟨⟨u, s⟩, hd, rfl⟩ := Option.map_eq_some_iff.mp hlast
    refine .inr ⟨_, htext, rfl, ?_⟩
    rw [refresh, hfresh, hd]

theorem Tells.refresh (h : Tells benchmarks begun us d) : Tells benchmarks begun us d.refresh := by
  rcases h.refresh_cases with ⟨-, hrefresh⟩ | ⟨text, htext, hfresh, hrefresh⟩
  · rwa [hrefresh]
  · have hlength := h.length_le
    rw [hfresh, Bool.toNat_true] at hlength
    rw [hrefresh]
    exact ⟨h.tracker, h.several, h.last, by simpa using hlength, fun _ => by simp [htext]⟩

theorem Tells.fresh_refresh (h : Tells benchmarks begun us d) : d.refresh.fresh = false := by
  rcases h.refresh_cases with ⟨hfresh, hrefresh⟩ | ⟨text, -, -, hrefresh⟩
  · rwa [hrefresh]
  · rw [hrefresh]

theorem Tells.take (h : Tells benchmarks begun us d) (t : Turn) :
    Tells benchmarks begun (us ++ received [t]) (d.take t) := by
  cases t with
  | update u => exact h.receive u
  | tick | close =>
    show Tells benchmarks begun (us ++ []) d.refresh
    rw [List.append_nil]
    exact h.refresh

/-- **What is written is the text of the newest update**, and it is written when no update comes. -/
theorem Tells.writes (h : Tells benchmarks begun us d) (hw : d.Writes t) :
    received [t] = [] ∧ (d.take t).fresh = false ∧
      ∃ text, lineAfter benchmarks begun us = some text ∧ (d.take t).shown = d.shown ++ [text] := by
  cases t with
  | update u => exact absurd rfl hw
  | tick | close =>
    rcases h.refresh_cases with ⟨-, hrefresh⟩ | ⟨text, htext, -, hrefresh⟩
    · exact absurd (congrArg Display.shown hrefresh) hw
    · exact ⟨rfl, h.fresh_refresh, text, htext, congrArg Display.shown hrefresh⟩

/-! ## All turns -/

theorem tells_takeAll (benchmarks : Int) (begun : Moment) (turns : List Turn) :
    Tells benchmarks begun (received turns) ((start benchmarks begun).takeAll turns) := by
  induction turns using List.reverseRecOn with
  | nil => exact tells_start benchmarks begun
  | append_singleton turns t ih =>
    rw [received_append, takeAll_append]
    exact ih.take t

theorem not_writes_of_not_fresh (h : d.fresh = false) (t : Turn) : ¬ d.Writes t := by
  cases t with
  | update u => exact fun hw => hw rfl
  | tick | close => exact fun hw => hw (congrArg Display.shown (refresh_of_not_fresh h))

/-- As long as no update comes, a line that is up to date stays as it is. -/
theorem takeAll_of_not_fresh {later : List Turn} (hfresh : d.fresh = false)
    (hlater : received later = []) :
    d.takeAll later = d := by
  induction later with
  | nil => rfl
  | cons t later ih =>
    have hstay : d.take t = d := by
      cases t with
      | update u => exact absurd hlater (by simp [received])
      | tick | close => exact refresh_of_not_fresh hfresh
    have hrest : received later = [] := by
      rw [← List.singleton_append, received_append] at hlater
      exact (List.append_eq_nil_iff.mp hlater).2
    show (d.take t).takeAll later = d
    rw [hstay, ih hrest]

/-! ## Given moments -/

/-- The turns of a display that is played: a tick comes between two updates if there is one at all.
-/
def turnsOf (close : Moment) : List (Timed Update) → List Turn
  | [] => []
  | u :: us =>
    let next := (us.head?.map Timed.time).getD close
    .update u :: (if ticksBy u.time < ticksBy next then [.tick] else []) ++ turnsOf close us

theorem received_turnsOf (close : Moment) (us : List (Timed Update)) :
    received (turnsOf close us) = us := by
  induction us with
  | nil => rfl
  | cons u us ih =>
    rw [turnsOf, received_append, ih]
    split <;> rfl

theorem play_eq_takeAll (d : Display) (close : Moment) (us : List (Timed Update)) :
    d.play close us = (d.takeAll (turnsOf close us)).take .close := by
  induction us generalizing d with
  | nil => rfl
  | cons u us ih =>
    rw [play, turnsOf, takeAll_append, ih]
    split <;> rfl

/-- **The line is up to date, and no update is lost.** After any turns, the next one writes only if
it brings no update, and then a text about the newest update and about the session after all that
were received. Between two texts an update is received. There are never more texts than updates, and
when no more can come, the last text is about the last update. The texts of a display that is played
are written in this way. -/
theorem line_up_to_date (benchmarks : Int) (h : 1 ≤ benchmarks)
    (begun : Moment) (turns : List Turn) :
    let d := (start benchmarks begun).takeAll turns
    (∀ t, d.Writes t → received [t] = [] ∧
      ∃ text, Says benchmarks begun (received turns) text ∧ (d.take t).shown = d.shown ++ [text]) ∧
    (∀ t later t', d.Writes t → ((d.take t).takeAll later).Writes t' → received later ≠ []) ∧
    d.shown.length ≤ (received turns).length ∧
    (received turns ≠ [] → ∃ text, Says benchmarks begun (received turns) text ∧
      (d.take .close).shown.getLast? = some text) ∧
    ∀ updates close, received (turnsOf close updates) = updates ∧
      lines? benchmarks updates close =
        some (((start benchmarks .origin).takeAll (turnsOf close updates)).take .close).shown := by
  intro d
  have htells : Tells benchmarks begun (received turns) d := tells_takeAll benchmarks begun turns
  refine ⟨fun t hw => ?_, fun t later t' hw hw' hlater => ?_, ?_, fun hne => ?_,
    fun updates close => ?_⟩
  · obtain ⟨hreceived, -, text, htext, hshown⟩ := htells.writes hw
    exact ⟨hreceived, text, says_of_lineAfter h htext, hshown⟩
  · -- After the first text there is nothing new, so the next turn cannot write.
    obtain ⟨-, hfresh, -⟩ := htells.writes hw
    rw [takeAll_of_not_fresh hfresh hlater] at hw'
    exact not_writes_of_not_fresh hfresh t' hw'
  · exact Nat.le_of_add_right_le htells.length_le
  · obtain ⟨text, htext⟩ := exists_lineAfter benchmarks begun hne
    exact ⟨text, says_of_lineAfter h htext, (htells.refresh.shown htells.fresh_refresh).trans htext⟩
  · refine ⟨received_turnsOf close updates, ?_⟩
    rw [lines?, if_neg (by omega), play_eq_takeAll]

/-- Three updates, a second apart, and three ticks: the first tick finds nothing new, the second one
two updates, the third one nothing again, and the last update is shown when no more can come. -/
theorem line_up_to_date_of_three_updates :
    let first : Timed Update := ⟨⟨1000000000⟩, .ofRun 0 "first" 1 2 5⟩
    let second : Timed Update := ⟨⟨2000000000⟩, .ofRun 0 "first" 2 2 5⟩
    let last : Timed Update := ⟨⟨3000000000⟩, .ofRun 1 "second" 2 2 7⟩
    let d := (start 2 .origin).takeAll [.tick, .update first, .update second,
      .tick, .tick, .update last]
    let halfway : Text :=
      " first run 2/2 (benchmark 1) [████████████████████░░░░░░░░░░░░░░░░░░░░]  50.0% ETA: 2s"
    let finished : Text :=
      " second run 2/2 (benchmark 2) [████████████████████████████████████████] 100.0% ETA: calculating..."
    d.shown = [halfway] ∧ (d.take .close).shown = [halfway, finished] ∧
      Says 2 .origin [first, second] halfway ∧ Says 2 .origin [first, second, last] finished := by
  intro first second last d halfway finished
  have hshown : (d.take .close).shown = [halfway, finished] := by decide +kernel
  have hhalfway :
      ((start 2 .origin).takeAll [.tick, .update first, .update second]).Writes .tick := by
    decide +kernel
  obtain ⟨hwrites, -⟩ :=
    line_up_to_date 2 (by decide) .origin [.tick, .update first, .update second]
  obtain ⟨-, -, -, hlast, -⟩ := line_up_to_date 2 (by decide) .origin
    [.tick, .update first, .update second, .tick, .tick, .update last]
  obtain ⟨-, text, hsays, htext⟩ := hwrites .tick hhalfway
  obtain ⟨text', hsays', htext'⟩ := hlast (List.cons_ne_nil _ _)
  have heq : text = halfway := by
    have h :
        ((start 2 .origin).takeAll [.tick, .update first, .update second, .tick]).shown =
          [halfway] := by
      decide +kernel
    exact List.singleton_inj.mp (htext.symm.trans h)
  have heq' : text' = finished := by
    rw [hshown] at htext'
    exact (Option.some.inj htext').symm
  exact ⟨by decide +kernel, hshown, heq ▸ hsays, heq' ▸ hsays'⟩

end Display

end Stopwatch.Progress
