import Stopwatch.Text.Piece

/-!
# Pens

The style in which a terminal writes: attributes, an underline and colors, and the link that the
text is part of. A sequence within a text changes them. A text that is broken into lines sets the
pen aside at the end of a line and takes it up again on the next, so `Pen.sequence` and
`Link.sequence` write what a terminal has to read for that.
-/

namespace Stopwatch

/-- An attribute of written text. -/
inductive Attribute where
  | bold
  | faint
  | italic
  | blinking
  | flashing
  | reversed
  | concealed
  | struck
deriving DecidableEq, Inhabited

namespace Attribute

/-- All attributes, in the order of their codes. -/
def all : List Attribute := [bold, faint, italic, blinking, flashing, reversed, concealed, struck]

/-- The code that turns the attribute on. -/
def code : Attribute → Nat
  | bold => 1
  | faint => 2
  | italic => 3
  | blinking => 5
  | flashing => 6
  | reversed => 7
  | concealed => 8
  | struck => 9

/-- The code that turns the attribute off. -/
def offCode : Attribute → Nat
  | bold | faint => 22
  | italic => 23
  | blinking | flashing => 25
  | reversed => 27
  | concealed => 28
  | struck => 29

end Attribute

/-- A color. -/
inductive Ink where
  /-- One of the eight colors and their bright variants. -/
  | basic (n : Nat)
  /-- A color of the palette. -/
  | indexed (n : Nat)
  /-- Red, green and blue parts. -/
  | direct (red green blue : Nat)
deriving DecidableEq, Inhabited

/-- A number of a command. -/
structure Parameter where
  /-- The number, unless it is left out. -/
  value : Option Nat
  /-- True if the next number is part of this one. -/
  more : Bool
deriving DecidableEq, Inhabited

namespace Parameter

/-- The number; zero if it is left out. -/
def number (p : Parameter) : Nat := p.value.getD 0

/-- The numbers of a command, given the part of the first that was read. -/
def readFrom : Option Nat → List UInt8 → List Parameter
  | v, [] => [⟨v, false⟩]
  | v, b :: rest =>
    if b == 0x3b then ⟨v, false⟩ :: readFrom none rest
    else if b == 0x3a then ⟨v, true⟩ :: readFrom none rest
    else readFrom (some (v.getD 0 * 10 + (b.toNat - 0x30))) rest

/-- The numbers of a command. -/
def read (bs : List UInt8) : List Parameter := if bs.isEmpty then [] else readFrom none bs

end Parameter

namespace Ink

/-- Three parts, all separated in the same way, and how many numbers spell them. -/
def read3? (outer m : Bool) : List Parameter → Option (Option Ink × Nat)
  | r :: g :: b :: _ =>
    if outer == m && r.more == m && g.more == m && !b.more then
      some (some (direct (r.number % 256) (g.number % 256) (b.number % 256)), 4)
    else none
  | _ => none

/-- The color that the numbers after the code of a layer spell, or no color, and how many numbers
do; none if they spell nothing. A color space may stand before the parts of a color. -/
def read? (layer : Parameter) : List Parameter → Option (Option Ink × Nat)
  | ⟨kind, m⟩ :: ps =>
    match kind.getD 0, ps with
    | 0, _ => some (none, 1)
    | 1, _ => some (some (direct 0 0 0), 1)
    | 2, space :: r :: g :: b :: _ =>
      if layer.more && m && space.more && r.more && g.more && !b.more then
        some (some (direct (r.number % 256) (g.number % 256) (b.number % 256)), 5)
      else read3? layer.more m ps
    | 2, ps => read3? layer.more m ps
    | 5, n :: _ =>
      if layer.more == m && !n.more then some (some (indexed (n.number % 256)), 2) else none
    | _, _ => none
  | [] => none

/-- The codes of a color on the layer whose first basic color is `base`. -/
def codes (base : Nat) : Ink → List Nat
  | basic n => if n < 8 then [base + n] else [base + 52 + n]
  | indexed n => [base + 8, 5, n]
  | direct r g b => [base + 8, 2, r, g, b]

end Ink

/-- How a terminal writes. -/
structure Pen where
  attributes : List Attribute := []
  /-- The kind of underline; zero for none. -/
  underline : Nat := 0
  /-- The color of the text. -/
  text : Option Ink := none
  /-- The color behind the text. -/
  ground : Option Ink := none
  /-- The color of the underline. -/
  line : Option Ink := none
deriving DecidableEq, Inhabited

namespace Pen

/-- True of a pen that writes plainly. -/
def isPlain (p : Pen) : Bool := p == {}

/-- True if a space shows nothing. -/
def blanks (p : Pen) : Bool := !p.attributes.contains .reversed &&
    p.ground.isNone && p.underline == 0

/-- Turns an attribute on. -/
def turnOn (p : Pen) (a : Attribute) : Pen :=
  { p with attributes := Attribute.all.filter fun b => b == a || p.attributes.contains b }

/-- Turns off the attributes that a code turns off. -/
def turnOff (p : Pen) (code : Nat) : Pen :=
  { p with attributes := p.attributes.filter fun a => a.offCode != code }

/-- A kind of underline; with a further number it is that kind. -/
def underlined (p : Pen) (q : Parameter) (more : List Parameter) : Pen × Nat :=
  match q.more, more with
  | true, kind :: _ => if kind.number ≤ 5 then ({ p with underline := kind.number }, 1) else (p, 0)
  | _, _ => ({ p with underline := 1 }, 0)

/-- A color that further numbers spell. -/
def colored (p : Pen) (q : Parameter) (more : List Parameter)
    (put : Option Ink → Pen) : Pen × Nat :=
  match Ink.read? q more with
  | some (ink, n) => (put ink, n)
  | none => (p, 0)

/-- The pen after a number of a command, and how many of the further numbers belong to it. -/
def take (p : Pen) (q : Parameter) (more : List Parameter) : Pen × Nat :=
  let n := q.number
  match Attribute.all.find? fun a => a.code == n with
  | some a => (p.turnOn a, 0)
  | none =>
    if n == 0 then ({}, 0)
    else if n == 4 then p.underlined q more
    else if n == 24 then ({ p with underline := 0 }, 0)
    else if 22 ≤ n && n < 30 then (p.turnOff n, 0)
    else if 30 ≤ n && n < 38 then ({ p with text := some (.basic (n - 30)) }, 0)
    else if n == 38 then p.colored q more fun ink => { p with text := ink }
    else if n == 39 then ({ p with text := none }, 0)
    else if 40 ≤ n && n < 48 then ({ p with ground := some (.basic (n - 40)) }, 0)
    else if n == 48 then p.colored q more fun ink => { p with ground := ink }
    else if n == 49 then ({ p with ground := none }, 0)
    else if n == 58 then p.colored q more fun ink => { p with line := ink }
    else if n == 59 then ({ p with line := none }, 0)
    else if 90 ≤ n && n < 98 then ({ p with text := some (.basic (n - 82)) }, 0)
    else if 100 ≤ n && n < 108 then ({ p with ground := some (.basic (n - 92)) }, 0)
    else (p, 0)

/-- The pen after the numbers of a command, of which the first `n` are already taken. -/
def takeAll : Nat → Pen → List Parameter → Pen
  | _, p, [] => p
  | n + 1, p, _ :: qs => takeAll n p qs
  | 0, p, q :: qs => let (p, n) := p.take q qs; takeAll n p qs

/-- The command without its introducer, if it is one that changes the pen. -/
def style? : List UInt8 → Option (List UInt8)
  | 0x9b :: body | 0x1b :: 0x5b :: body =>
    if body.getLast? == some 0x6d && body.dropLast.all fun b => 0x30 ≤ b && b < 0x3c then
      some body.dropLast
    else none
  | _ => none

/-- The pen after a piece of a text. -/
def after (p : Pen) (t : Text) : Pen :=
  match (style? t.bytes).map Parameter.read with
  | none => p
  | some [] => {}
  | some qs => takeAll 0 p qs

/-- What makes a terminal write plainly. -/
def reset : Text := ⟨[0x1b, 0x5b, 0x6d]⟩

/-- What makes a terminal that writes plainly write with this pen. -/
def sequence (p : Pen) : Text :=
  let numbers (ns : List Nat) : List Text := ns.map Text.ofNat
  let underline : List Text := match p.underline with
    | 0 => []
    | 1 => ["4"]
    | n => ["4:" ++ Text.ofNat n]
  let line (ink : Ink) : List Text := match ink with
    | .basic n => numbers [58, 5, n]
    | ink => numbers (ink.codes 50)
  let codes := numbers (p.attributes.map Attribute.code) ++ underline ++
    ((p.text.map (Ink.codes 30)).map numbers).getD [] ++
    ((p.ground.map (Ink.codes 40)).map numbers).getD [] ++
    (p.line.map line).getD []
  ⟨[0x1b, 0x5b]⟩ ++ Text.join ";" codes ++ "m"

end Pen

/-- What a stretch of text leads to. -/
structure Link where
  parameters : Text := ∅
  target : Text := ∅
deriving DecidableEq, Inhabited

namespace Link

/-- True if nothing is linked. -/
def isNone (l : Link) : Bool := l.parameters.isEmpty && l.target.isEmpty

/-- The data of a string for the system, without what ends it. -/
def data? : List UInt8 → Option (List UInt8)
  | 0x9d :: body | 0x1b :: 0x5d :: body =>
    some (body.takeWhile fun b => b != 0x07 && b != 0x1b && b != 0x9c)
  | _ => none

/-- The link after a piece of a text: a string with the number 8 gives parameters and a target. -/
def after (l : Link) (t : Text) : Link :=
  match (data? t.bytes).map fun bs => Text.split ⟨bs⟩ 0x3b with
  | some [n, parameters, target] =>
    let digits := n.bytes.takeWhile fun b => 0x30 ≤ b && b < 0x3a
    if digits.dropWhile (· == 0x30) == [0x38] then ⟨parameters, target⟩ else l
  | _ => l

/-- What makes a terminal link the text that follows. -/
def sequence (l : Link) : Text :=
  ⟨[0x1b]⟩ ++ "]8;" ++ l.parameters ++ ";" ++ l.target ++ ⟨[0x07]⟩

/-- What ends a link. -/
def reset : Text := sequence {}

end Link

end Stopwatch
