import Stopwatch.Text.Cells

/-!
# Pieces of a text

A text is laid out in pieces that are never taken apart: a cluster of characters, a control
character, or a sequence that an escape character or a control code introduces. Only clusters take
cells.

`Text.pieces` loses nothing: the pieces are consecutive stretches of the text (`concat_pieces`).
-/

namespace Stopwatch

/-- A stretch of a text that stays together. -/
structure Piece where
  text : Text
  /-- The cells that it takes. -/
  cells : Nat
deriving DecidableEq, Inhabited

namespace Piece

/-- Where a sequence stands. -/
inductive Stage where
  /-- After an escape character. -/
  | escape
  /-- Before the parameters of a command. -/
  | start
  /-- In the parameters of a command. -/
  | parameters
  /-- After the parameters of a command. -/
  | finish
  /-- In a string. -/
  | string
deriving DecidableEq, Inhabited

/-- How a sequence goes on with a byte. -/
inductive Next where
  /-- The sequence goes on. -/
  | more (s : Stage)
  /-- The byte is the last one. -/
  | last
  /-- The byte is no longer part of the sequence. -/
  | stop
deriving DecidableEq, Inhabited

/-- What a sequence was introduced as. -/
inductive Kind where
  /-- A string for the system, such as a title. -/
  | title
  /-- A string for the device. -/
  | device
  /-- Any other. -/
  | other
deriving DecidableEq, Inhabited

/-- The kind of sequence that starts with these bytes. -/
def kindOf : List UInt8 → Kind
  | 0x9d :: _ | 0x1b :: 0x5d :: _ => .title
  | 0x90 :: _ | 0x1b :: 0x50 :: _ => .device
  | _ => .other

/-- A byte between the parameters of a command and its end. -/
def finishing (k : Kind) (b : UInt8) : Next :=
  if 0x20 ≤ b && b < 0x30 then .more .finish
  else if 0x40 ≤ b && b < 0x7f then if k = .device then .more .string else .last
  else .stop

/-- A byte among the parameters of a command. -/
def inParameters (k : Kind) (b : UInt8) : Next :=
  if 0x30 ≤ b && b < 0x3c then .more .parameters else finishing k b

/-- How a sequence goes on at `b :: rest`. -/
def Stage.next (k : Kind) (s : Stage) (b : UInt8) (rest : List UInt8) : Next :=
  match s with
  | .escape =>
    if b == 0x5b || b == 0x50 then .more .start
    else if b == 0x5d || b == 0x58 || b == 0x5e || b == 0x5f then .more .string
    else if 0x20 ≤ b && b < 0x30 then .more .escape
    else if 0x30 ≤ b && b < 0x7f then .last
    else .stop
  | .start => if 0x3c ≤ b && b < 0x40 then .more .start else inParameters k b
  | .parameters => inParameters k b
  | .finish => finishing k b
  | .string =>
    if b == 0x9c || (b == 0x07 && k = .title) then .last
    else if b == 0x18 || b == 0x1a then .stop
    else if b == 0x1b then if rest.head? == some 0x5c then .more .escape else .stop
    else .more .string

/-- The number of bytes with which a sequence goes on. -/
def extent (k : Kind) : Stage → List UInt8 → Nat
  | _, [] => 0
  | s, b :: rest =>
    match s.next k b rest with
    | .more s => extent k s rest + 1
    | .last => 1
    | .stop => 0

/-- The stage after the first byte of a sequence; none if the byte introduces none. -/
def introduces (b : UInt8) : Option Stage :=
  if b == 0x1b then some .escape
  else if b == 0x9b || b == 0x90 then some .start
  else if b == 0x9d || b == 0x9f || b == 0x98 || b == 0x9e then some .string
  else none

/-- The cells and the size of the piece at the head of `b :: rest`. -/
def head (b : UInt8) (rest : List UInt8) : Nat × Nat :=
  match introduces b with
  | some s => (0, 1 + extent (kindOf (b :: rest)) s rest)
  | none => if 0xc0 ≤ b then Cluster.first b rest else (if 0x20 ≤ b && b < 0x7f then 1 else 0, 1)

/-- The pieces of a list of bytes whose first `n` bytes belong to the piece before. -/
def split : Nat → List UInt8 → List Piece
  | _, [] => []
  | n + 1, _ :: rest => split n rest
  | 0, b :: rest =>
    let (cells, size) := head b rest
    ⟨⟨(b :: rest).take size⟩, cells⟩ :: split (size - 1) rest

/-- A piece has at least one byte. -/
theorem one_le_head (b : UInt8) (rest : List UInt8) : 1 ≤ (head b rest).2 := by
  unfold head
  split
  · exact Nat.le_add_right 1 _
  · split
    · exact Cluster.one_le_first b rest
    · exact Nat.le_refl 1

/-- The pieces of a list of bytes are the list itself, less what belongs to the piece before. -/
theorem flatMap_split (n : Nat) (bs : List UInt8) :
    (split n bs).flatMap (fun p => p.text.bytes) = bs.drop n := by
  induction bs generalizing n with
  | nil => cases n <;> rfl
  | cons b rest ih =>
    cases n with
    | zero =>
      rw [split]
      dsimp only
      rw [List.flatMap_cons, ih]
      have h := one_le_head b rest
      obtain ⟨size, hsize⟩ : ∃ size, (head b rest).2 = size + 1 := ⟨(head b rest).2 - 1, by omega⟩
      rw [hsize, List.take_succ_cons, Nat.add_sub_cancel, List.cons_append,
        List.take_append_drop, List.drop_zero]
    | succ n =>
      rw [split, ih, List.drop_succ_cons]

end Piece

/-- The pieces of a text. -/
def Text.pieces (t : Text) : List Piece := Piece.split 0 t.bytes

/-- The pieces of a text, one after the other, are the text. -/
theorem Text.concat_pieces (t : Text) : Text.concat (t.pieces.map Piece.text) = t := by
  show Text.mk _ = t
  rw [List.flatMap_map]
  unfold Text.pieces
  rw [Piece.flatMap_split, List.drop_zero]

end Stopwatch
