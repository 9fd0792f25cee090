import Stopwatch.Text.Pen

/-!
# Wrapping

Breaks the lines of a text so that they fit into a width. Wrapping goes through the pieces of the
text once. A word is written together with the spaces before it as soon as it is known to fit on the
line; a line is broken before a word that does not fit, and the spaces at the break are dropped. A
hyphen ends a word, and a word longer than a line is cut.

A pen or a link that is in use where a line is broken is put aside for the break. While the pen
shows spaces, a space belongs to its word.
-/

namespace Stopwatch

/-- A wrapping in progress. The lists have their last text first. -/
structure Wrapping where
  /-- What is written. -/
  out : List Text := []
  /-- The cells written on the current line. -/
  used : Nat := 0
  /-- The number of spaces that wait for a word to follow. -/
  space : Nat := 0
  /-- The word that is being read. -/
  word : List Text := []
  /-- The cells of that word. -/
  cells : Nat := 0
  /-- The pen and the link at the end of what was read. -/
  pen : Pen := {}
  link : Link := {}
  /-- The pen and the link at the end of what is written. -/
  outPen : Pen := {}
  outLink : Link := {}
deriving Inhabited

namespace Wrapping

/-- Writes the waiting spaces. -/
def flushSpace (w : Wrapping) : Wrapping :=
  { w with out := Text.spaces w.space :: w.out, used := w.used + w.space, space := 0 }

/-- Writes the word, if there is one, with the spaces before it. -/
def flushWord (w : Wrapping) : Wrapping :=
  if w.word.isEmpty then w
  else
    let w := w.flushSpace
    { w with
      out := w.word ++ w.out, used := w.used + w.cells, word := [], cells := 0
      outPen := w.pen, outLink := w.link }

/-- Begins a new line. -/
def breakLine (w : Wrapping) : Wrapping :=
  let putAside :=
    (if w.outPen.isPlain then ∅ else Pen.reset) ++ if w.outLink.isNone then ∅ else Link.reset
  let takeUp := (if w.outLink.isNone then ∅ else w.outLink.sequence) ++
    if w.outPen.isPlain then ∅ else w.outPen.sequence
  { w with out := (putAside ++ Text.newline ++ takeUp) :: w.out, used := 0, space := 0 }

/-- Spaces at the end of a line are written if they fit. -/
def settleSpace (limit : Nat) (w : Wrapping) : Wrapping :=
  if w.cells != 0 then w
  else if limit < w.used + w.space then { w with used := 0, space := 0 }
  else { w with out := Text.spaces w.space :: w.out, space := 0 }

/-- Adds a piece to the word. A word as wide as the limit is written first, and the line is broken
before a word that does not fit on it. -/
def extend (limit : Nat) (w : Wrapping) (p : Piece) : Wrapping :=
  let w := if limit < w.cells + p.cells then w.flushWord else w
  let w := { w with word := p.text :: w.word, cells := w.cells + p.cells }
  if limit < w.used + w.cells + w.space then w.breakLine else w

/-- Takes the next piece. -/
def step (limit : Nat) (w : Wrapping) (p : Piece) : Wrapping :=
  if p.text == Text.newline then (w.settleSpace limit).flushWord.breakLine
  else if p.cells == 0 then
    { w with word := p.text :: w.word, pen := w.pen.after p.text, link := w.link.after p.text }
  else if p.text == " " && w.pen.blanks then
    let w := w.flushWord
    { w with space := w.space + 1 }
  else if p.text == "-" then
    let w := w.flushSpace
    if w.used + w.cells + 1 ≤ limit then
      let w := w.flushWord
      { w with out := p.text :: w.out, used := w.used + 1 }
    else w.extend limit p
  else w.extend limit p

/-- The text that was written, with what is left at the end. -/
def finish (limit : Nat) (w : Wrapping) : Text :=
  Text.concat (w.settleSpace limit).flushWord.out.reverse

/-- Breaks lines so that they fit into a width; a width of zero leaves the text as it is. -/
def wrap (limit : Nat) (t : Text) : Text :=
  if limit == 0 then t else (t.pieces.foldl (step limit) {}).finish limit

end Wrapping

end Stopwatch
