import Stopwatch.Text.Joint
import Stopwatch.Text.Rune

/-!
# Terminal cells

Characters that join each other make a cluster, and a cluster is drawn as one. A cluster takes as
many cells of a terminal as its characters: two for a character of an East Asian script or a colored
picture, none for a mark, and one for most others. Flags, linked pictures and Hangul syllables take
the cells of their first character; a selector after a picture makes it plain or colored.

`Cluster.first` reads the cluster at the head of a list of bytes, which has at least one byte
(`one_le_first`).
-/

namespace Stopwatch

namespace Cells

/-- The characters of East Asian scripts, and others of that width. -/
def wide : Array (Nat × Nat) := #[
  (0x1100, 0x115f), (0x231a, 0x231b), (0x2329, 0x232a), (0x23e9, 0x23ec), (0x23f0, 0x23f0),
  (0x23f3, 0x23f3), (0x25fd, 0x25fe), (0x2614, 0x2615), (0x2648, 0x2653), (0x267f, 0x267f),
  (0x2693, 0x2693), (0x26a1, 0x26a1), (0x26aa, 0x26ab), (0x26bd, 0x26be), (0x26c4, 0x26c5),
  (0x26ce, 0x26ce), (0x26d4, 0x26d4), (0x26ea, 0x26ea), (0x26f2, 0x26f3), (0x26f5, 0x26f5),
  (0x26fa, 0x26fa), (0x26fd, 0x26fd), (0x2705, 0x2705), (0x270a, 0x270b), (0x2728, 0x2728),
  (0x274c, 0x274c), (0x274e, 0x274e), (0x2753, 0x2755), (0x2757, 0x2757), (0x2795, 0x2797),
  (0x27b0, 0x27b0), (0x27bf, 0x27bf), (0x2b1b, 0x2b1c), (0x2b50, 0x2b50), (0x2b55, 0x2b55),
  (0x2e80, 0x2e99), (0x2e9b, 0x2ef3), (0x2f00, 0x2fd5), (0x2ff0, 0x2ffb), (0x3000, 0x303e),
  (0x3041, 0x3096), (0x3099, 0x30ff), (0x3105, 0x312f), (0x3131, 0x318e), (0x3190, 0x31e3),
  (0x31f0, 0x321e), (0x3220, 0x3247), (0x3250, 0x4dbf), (0x4e00, 0xa48c), (0xa490, 0xa4c6),
  (0xa960, 0xa97c), (0xac00, 0xd7a3), (0xf900, 0xfaff), (0xfe10, 0xfe19), (0xfe30, 0xfe52),
  (0xfe54, 0xfe66), (0xfe68, 0xfe6b), (0xff01, 0xff60), (0xffe0, 0xffe6), (0x16fe0, 0x16fe4),
  (0x16ff0, 0x16ff1), (0x17000, 0x187f7), (0x18800, 0x18cd5), (0x18d00, 0x18d08),
  (0x1aff0, 0x1aff3), (0x1aff5, 0x1affb), (0x1affd, 0x1affe), (0x1b000, 0x1b122),
  (0x1b132, 0x1b132), (0x1b150, 0x1b152), (0x1b155, 0x1b155), (0x1b164, 0x1b167),
  (0x1b170, 0x1b2fb), (0x1f004, 0x1f004), (0x1f0cf, 0x1f0cf), (0x1f18e, 0x1f18e),
  (0x1f191, 0x1f19a), (0x1f200, 0x1f202), (0x1f210, 0x1f23b), (0x1f240, 0x1f248),
  (0x1f250, 0x1f251), (0x1f260, 0x1f265), (0x1f300, 0x1f320), (0x1f32d, 0x1f335),
  (0x1f337, 0x1f37c), (0x1f37e, 0x1f393), (0x1f3a0, 0x1f3ca), (0x1f3cf, 0x1f3d3),
  (0x1f3e0, 0x1f3f0), (0x1f3f4, 0x1f3f4), (0x1f3f8, 0x1f43e), (0x1f440, 0x1f440),
  (0x1f442, 0x1f4fc), (0x1f4ff, 0x1f53d), (0x1f54b, 0x1f54e), (0x1f550, 0x1f567),
  (0x1f57a, 0x1f57a), (0x1f595, 0x1f596), (0x1f5a4, 0x1f5a4), (0x1f5fb, 0x1f64f),
  (0x1f680, 0x1f6c5), (0x1f6cc, 0x1f6cc), (0x1f6d0, 0x1f6d2), (0x1f6d5, 0x1f6d7),
  (0x1f6dc, 0x1f6df), (0x1f6eb, 0x1f6ec), (0x1f6f4, 0x1f6fc), (0x1f7e0, 0x1f7eb),
  (0x1f7f0, 0x1f7f0), (0x1f90c, 0x1f93a), (0x1f93c, 0x1f945), (0x1f947, 0x1f9ff),
  (0x1fa70, 0x1fa7c), (0x1fa80, 0x1fa88), (0x1fa90, 0x1fabd), (0x1fabf, 0x1fac5),
  (0x1face, 0x1fadb), (0x1fae0, 0x1fae8), (0x1faf0, 0x1faf8), (0x20000, 0x2fffd),
  (0x30000, 0x3fffd)]

/-- The pictures that are plain although they are among the wide characters. -/
def plainPictures : Array (Nat × Nat) := #[
  (0x3030, 0x3030), (0x303d, 0x303d), (0x3297, 0x3297), (0x3299, 0x3299), (0x1f202, 0x1f202),
  (0x1f237, 0x1f237), (0x1f260, 0x1f265)]

/-- The number of cells of a character with a joint. -/
def ofCode (j : Joint) (n : Nat) : Nat :=
  match j with
  | .control | .mark | .joiner => 0
  | .flag => 2
  | .picture => if Text.isWithin wide n && !Text.isWithin plainPictures n then 2 else 1
  | _ => if n == 0x2e3a then 3 else if n == 0x2e3b then 4 else if Text.isWithin wide n then 2 else 1

end Cells

/-- What the end of a cluster is, as far as it matters for the character after it. -/
inductive Cluster where
  | plain
  | control
  /-- A sign that takes the next character. -/
  | opening
  | initial
  | vowel
  | final
  | picture
  /-- A picture and a joiner. -/
  | link
  /-- Half of a flag. -/
  | flag
deriving DecidableEq, Inhabited

namespace Cluster

/-- A cluster of one character. -/
def ofJoint : Joint → Cluster
  | .control => control
  | .opening => opening
  | .initial => initial
  | .vowel | .openSyllable => vowel
  | .final | .closedSyllable => final
  | .picture => picture
  | .flag => flag
  | _ => plain

/-- The cluster with one more character; none if the character begins another cluster. -/
def add? (c : Cluster) (j : Joint) : Option Cluster :=
  match c, j with
  | control, _ | _, .control => none
  | picture, .mark => some picture
  | picture, .joiner => some link
  | _, .mark | _, .joiner | _, .spacingMark => some plain
  | opening, j => some (ofJoint j)
  | initial, .initial => some initial
  | initial, .vowel | initial, .openSyllable | vowel, .vowel => some vowel
  | initial, .closedSyllable | vowel, .final | final, .final => some final
  | link, .picture => some picture
  | flag, .flag => some plain
  | _, _ => none

/-- The cells of a cluster that began with `first` and took `n` cells, after one more character. -/
def widen (first : Joint) (n : Nat) (j : Joint) (code : Nat) : Nat :=
  match first with
  | .picture => if code == 0xfe0e then 1 else if code == 0xfe0f then 2 else n
  | .flag | .initial => n
  | _ => n + Cells.ofCode j code

/-- The cells and the size of a cluster that began with `first`, given those so far. The first
argument counts the bytes that belong to a character already read. -/
def grow (first : Joint) : Nat → Cluster → Nat → Nat → List UInt8 → Nat × Nat
  | _, _, cells, size, [] => (cells, size)
  | n + 1, c, cells, size, _ :: rest => grow first n c cells (size + 1) rest
  | 0, c, cells, size, a :: rest =>
    let (r, more) := Text.readRune a rest
    let j := Joint.ofCode r.code
    match c.add? j with
    | none => (cells, size)
    | some c => grow first more c (widen first cells j r.code) (size + 1) rest

theorem size_le_grow (first : Joint) (n : Nat) (c : Cluster) (cells size : Nat) (bs : List UInt8) :
    size ≤ (grow first n c cells size bs).2 := by
  induction bs generalizing n c cells size with
  | nil => simp [grow]
  | cons a rest ih =>
    cases n with
    | zero =>
      rw [grow]
      dsimp only
      split
      · exact Nat.le_refl size
      · exact Nat.le_trans (Nat.le_succ size) (ih _ _ _ _)
    | succ n =>
      rw [grow]
      exact Nat.le_trans (Nat.le_succ size) (ih _ _ _ _)

/-- The cells and the size in bytes of the cluster at the head of `a :: rest`. -/
def first (a : UInt8) (rest : List UInt8) : Nat × Nat :=
  let (r, more) := Text.readRune a rest
  let j := Joint.ofCode r.code
  grow j more (ofJoint j) (Cells.ofCode j r.code) 1 rest

/-- A cluster has at least one byte. -/
theorem one_le_first (a : UInt8) (rest : List UInt8) : 1 ≤ (first a rest).2 := by
  unfold first
  exact size_le_grow _ _ _ _ _ _

end Cluster

end Stopwatch
