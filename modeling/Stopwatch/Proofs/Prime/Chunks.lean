import Mathlib.Data.List.Pairwise
import Stopwatch.Prime.CrossCheck

/-!
# The chunks of a range

The chunks of a range follow one another without a gap, from its first number to its last
(`tiles_chunks`). This is said over the integers, where nothing wraps, although the ends of the
chunks are found by sums of 64-bit numbers. So every number of the range is in one chunk and in no
other.
-/

namespace Stopwatch.Prime

variable {lo hi n : Int64} {a b : Int} {c d : Chunk} {cs : List Chunk}

namespace Chunk

/-- The number is one of the chunk's. -/
def Contains (c : Chunk) (n : Int64) : Prop := c.first ≤ n ∧ n ≤ c.last

theorem contains_iff : c.Contains n ↔ c.first.toInt ≤ n.toInt ∧ n.toInt ≤ c.last.toInt := by
  rw [Contains, Int64.le_iff_toInt_le, Int64.le_iff_toInt_le]

end Chunk

/-- The chunks hold the integers from `a` on that are below `b`, one after the other. -/
inductive Tiles : Int → List Chunk → Int → Prop where
  | nil (a : Int) : Tiles a [] a
  | cons {c : Chunk} {cs : List Chunk} {b : Int} (first_le_last : c.first.toInt ≤ c.last.toInt)
      (rest : Tiles (c.last.toInt + 1) cs b) : Tiles c.first.toInt (c :: cs) b

theorem tiles_chunksFrom (h : lo ≤ hi) : Tiles lo.toInt (chunksFrom hi lo) (hi.toInt + 1) := by
  fun_induction chunksFrom hi lo with
  | case1 first _ _ =>
    exact .cons (c := ⟨first, hi⟩) (Int64.le_iff_toInt_le.mp h) (.nil _)
  | case2 first _ hend ih =>
    obtain ⟨hlast, hlt⟩ := toInt_chunkEnd hend
    have hnext := toInt_add_chunkSize hend
    generalize chunkEnd hi first = last at hlast hlt
    have hle : first.toInt ≤ last.toInt := by omega
    have hadjacent : (first + chunkSize).toInt = last.toInt + 1 := by omega
    have htiles := ih (by rw [Int64.le_iff_toInt_le]; omega)
    rw [hadjacent] at htiles
    exact .cons (c := ⟨first, last⟩) hle htiles
  | case3 first hnot => exact absurd h hnot

theorem tiles_chunks (h : lo ≤ hi) : Tiles lo.toInt (chunks lo hi) (hi.toInt + 1) :=
  tiles_chunksFrom h

theorem chunks_of_lt (h : hi < lo) : chunks lo hi = [] := by
  rw [chunks, chunksFrom, if_neg (Int64.not_le.mpr h)]

namespace Tiles

theorem le (h : Tiles a cs b) : a ≤ b := by
  induction h with
  | nil a => exact Int.le_refl a
  | cons hle _ ih => omega

theorem bounds (h : Tiles a cs b) (hc : c ∈ cs) :
    a ≤ c.first.toInt ∧ c.first.toInt ≤ c.last.toInt ∧ c.last.toInt < b := by
  induction h with
  | nil a => exact absurd hc (by simp)
  | cons hle rest ih =>
    have hlt := rest.le
    rcases List.mem_cons.mp hc with rfl | hc
    · omega
    · have := ih hc
      omega

/-- What comes later holds greater numbers. -/
theorem pairwise (h : Tiles a cs b) : cs.Pairwise fun c d => c.last.toInt < d.first.toInt := by
  induction h with
  | nil a => exact .nil
  | cons hle rest ih =>
    refine .cons ?_ ih
    intro d hd
    have := rest.bounds hd
    omega

theorem exists_contains (h : Tiles a cs b) (h1 : a ≤ n.toInt) (h2 : n.toInt < b) :
    ∃ c ∈ cs, c.Contains n := by
  induction h with
  | nil a => omega
  | @cons c cs b hle rest ih =>
    by_cases hn : n.toInt ≤ c.last.toInt
    · exact ⟨c, List.mem_cons_self, Chunk.contains_iff.mpr ⟨h1, hn⟩⟩
    · obtain ⟨d, hd, hcontains⟩ := ih (by omega) h2
      exact ⟨d, List.mem_cons_of_mem c hd, hcontains⟩

end Tiles

theorem bounds_of_mem_chunks (hc : c ∈ chunks lo hi) :
    lo ≤ c.first ∧ c.first ≤ c.last ∧ c.last ≤ hi := by
  by_cases h : lo ≤ hi
  · have := (tiles_chunks h).bounds hc
    simp only [Int64.le_iff_toInt_le]
    omega
  · rw [chunks_of_lt (Int64.not_le.mp h)] at hc
    exact absurd hc (by simp)

theorem pairwise_chunks (lo hi : Int64) : (chunks lo hi).Pairwise fun c d => c.last < d.first := by
  by_cases h : lo ≤ hi
  · exact (tiles_chunks h).pairwise.imp fun hlt => Int64.lt_iff_toInt_lt.mpr hlt
  · rw [chunks_of_lt (Int64.not_le.mp h)]
    exact .nil

theorem nodup_chunks (lo hi : Int64) : (chunks lo hi).Nodup := by
  refine List.Pairwise.imp_of_mem ?_ (pairwise_chunks lo hi)
  rintro c d hc - hlt rfl
  exact absurd (bounds_of_mem_chunks hc).2.1 (Int64.not_le.mpr hlt)

theorem exists_chunk (h1 : lo ≤ n) (h2 : n ≤ hi) : ∃ c ∈ chunks lo hi, c.Contains n := by
  refine (tiles_chunks (Int64.le_trans h1 h2)).exists_contains (Int64.le_iff_toInt_le.mp h1) ?_
  have := Int64.le_iff_toInt_le.mp h2
  omega

theorem mem_range_of_contains (hc : c ∈ chunks lo hi) (hn : c.Contains n) : lo ≤ n ∧ n ≤ hi := by
  obtain ⟨h1, -, h2⟩ := bounds_of_mem_chunks hc
  exact ⟨Int64.le_trans h1 hn.1, Int64.le_trans hn.2 h2⟩

/-- No number is in two chunks. -/
theorem eq_of_contains (hc : c ∈ chunks lo hi) (hd : d ∈ chunks lo hi)
    (hcn : c.Contains n) (hdn : d.Contains n) :
    c = d := by
  have hapart : (chunks lo hi).Pairwise fun c d => c.last < d.first ∨ d.last < c.first :=
    (pairwise_chunks lo hi).imp .inl
  have : Std.Symm fun c d : Chunk => c.last < d.first ∨ d.last < c.first := ⟨fun _ _ => Or.symm⟩
  by_contra hne
  rcases hapart.forall hc hd hne with hlt | hlt
  · exact absurd (Int64.le_trans hdn.1 hcn.2) (Int64.not_le.mpr hlt)
  · exact absurd (Int64.le_trans hcn.1 hdn.2) (Int64.not_le.mpr hlt)

end Stopwatch.Prime
