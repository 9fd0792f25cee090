import Stopwatch.Template.Directive

/-!
# Message templates

`Template.fill` replaces the directives of a template by the values given for it, in order or by an
explicit index (`%[2]d`); widths and precisions may be values themselves (`%*d`). What is wrong with
a template shows in the result: a value too few, too many, a directive without a verb.

A directive takes at least one character, so the length of what is left bounds the work.
-/

namespace Stopwatch

namespace Template

/-- How far the values are used up. -/
structure Cursor where
  /-- Index of the next value. -/
  next : Nat := 0
  /-- True once a template named an index. -/
  reordered : Bool := false
deriving Inhabited

/-- The greatest width or precision. -/
def maxSize : Nat := 1000000

/-- True of the rune that is a given character. -/
private def isChar (c : Char) (rs : List Rune) : Bool := rs.head? == some (.char c)

/-- The value of a decimal digit. -/
private def digit? : Rune → Option Nat
  | .char c => if c.isDigit then some (c.toNat - 0x30) else none
  | .stray _ => none

/-- Reads a number. If it is too large there is none, and nothing is left of the template. -/
def number : Option Nat → List Rune → Option Nat × List Rune
  | acc, [] => (acc, [])
  | acc, r :: rs =>
    match digit? r with
    | none => (acc, r :: rs)
    | some d => if maxSize < acc.getD 0 then (none, []) else number (some (acc.getD 0 * 10 + d)) rs

/-- Reads the flags of a directive. -/
def flags : Directive → List Rune → Directive × List Rune
  | d, [] => (d, [])
  | d, r :: rs =>
    if r == .char '#' then flags { d with sharp := true } rs
    else if r == .char '0' then flags { d with zero := true } rs
    else if r == .char '+' then flags { d with plus := true } rs
    else if r == .char '-' then flags { d with minus := true } rs
    else if r == .char ' ' then flags { d with space := true } rs
    else (d, r :: rs)

/-- An index in square brackets, if one stands here. -/
inductive Index where
  /-- No bracket stands here. -/
  | absent
  /-- The index of a value. -/
  | position (i : Nat)
  /-- Brackets whose content names no value; `wellFormed` tells whether it is a number. -/
  | bad (wellFormed : Bool)

/-- Reads an index in square brackets, for a template with `count` values. -/
def index (count : Nat) (rs : List Rune) : Index × List Rune :=
  match rs with
  | .char '[' :: inner =>
    let body := inner.takeWhile (· != .char ']')
    match inner.dropWhile (· != .char ']') with
    | _ :: after =>
      match number none body with
      | (some n, []) => if 1 ≤ n ∧ n ≤ count then (.position (n - 1), after) else (.bad true, after)
      | _ => if inner.length < 2 then (.bad false, inner) else (.bad false, after)
    | [] => (.bad false, inner)
  | _ => (.absent, rs)

/-- What is known while a directive is read. -/
structure Progress where
  directive : Directive := {}
  cursor : Cursor := {}
  /-- Complaints about width and precision. -/
  complaints : Text := ∅
  /-- False once an index was wrong or in the wrong place. -/
  good : Bool := true
  /-- True right after an index. -/
  afterIndex : Bool := false
deriving Inhabited

/-- Reads an index and moves the cursor to it. -/
def takeIndex (count : Nat) (p : Progress) (rs : List Rune) : Progress × List Rune :=
  match index count rs with
  | (.absent, rest) => ({ p with afterIndex := false }, rest)
  | (.position i, rest) => ({ p with cursor := ⟨i, true⟩, afterIndex := true }, rest)
  | (.bad wellFormed, rest) =>
    ({ p with
        cursor := { p.cursor with reordered := true }, good := false, afterIndex := wellFormed },
      rest)

/-- The next value as a size, if it is a whole number of moderate size. -/
def sizeValue (values : Array Value) (p : Progress) : Option Int × Progress :=
  match values[p.cursor.next]? with
  | none => (none, p)
  | some v =>
    let p := { p with cursor := { p.cursor with next := p.cursor.next + 1 } }
    match v with
    | .int i => if i.toInt.natAbs ≤ maxSize then (some i.toInt, p) else (none, p)
    | _ => (none, p)

/-- Reads the width. -/
def takeWidth (values : Array Value) (p : Progress) (rs : List Rune) : Progress × List Rune :=
  if isChar '*' rs then
    let (size, p) := sizeValue values p
    let p := { p with afterIndex := false }
    let p := match size with
      | none => { p with complaints := p.complaints ++ "%!(BADWIDTH)" }
      | some w =>
        { p with directive := { p.directive with
            width := some w.natAbs, minus := p.directive.minus || w < 0 } }
    (p, rs.drop 1)
  else
    let (w, rest) := number none rs
    ({ p with
        directive := { p.directive with width := w }
        good := p.good && !(p.afterIndex && w.isSome) }, rest)

/-- Reads the precision. -/
def takePrecision (values : Array Value) (p : Progress) (rs : List Rune) : Progress × List Rune :=
  if isChar '.' rs then
    let p := { p with good := p.good && !p.afterIndex }
    let (p, rs) := takeIndex values.size p (rs.drop 1)
    if isChar '*' rs then
      let (size, p) := sizeValue values p
      let p := { p with afterIndex := false }
      let p := match size with
        | some w =>
          if 0 ≤ w then { p with directive := { p.directive with precision := some w.toNat } }
          else { p with complaints := p.complaints ++ "%!(BADPREC)" }
        | none => { p with complaints := p.complaints ++ "%!(BADPREC)" }
      (p, rs.drop 1)
    else
      let (n, rest) := number none rs
      ({ p with directive := { p.directive with precision := some (n.getD 0) } }, rest)
  else (p, rs)

/-- The character a rune stands for as a verb. -/
private def verbOf : Rune → Char
  | .char c => c
  | .stray _ => Char.ofNat 0xfffd

/-- The directive as the verb `v` understands it: `#` asks for source notation, `+` for nothing. -/
private def forValue (verb : Char) (d : Directive) : Directive :=
  if verb == 'v' || verb == 'w' then { d with source := d.sharp, sharp := false, plus := false }
  else d

/-- Writes one directive, read from after its percent sign. -/
def directive (values : Array Value) (cursor : Cursor) (rs : List Rune) :
    Text × Cursor × List Rune :=
  let (d, rs) := flags {} rs
  let p : Progress := { directive := d, cursor := cursor }
  let (p, rs) := takeIndex values.size p rs
  let (p, rs) := takeWidth values p rs
  let (p, rs) := takePrecision values p rs
  let (p, rs) := if p.afterIndex then (p, rs) else takeIndex values.size p rs
  match rs with
  | [] => (p.complaints ++ "%!(NOVERB)", p.cursor, [])
  | r :: rest =>
    let verb := verbOf r
    let name := Text.ofChars [verb]
    if verb == '%' then (p.complaints ++ "%", p.cursor, rest)
    else if !p.good then (p.complaints ++ "%!" ++ name ++ "(BADINDEX)", p.cursor, rest)
    else match values[p.cursor.next]? with
      | none => (p.complaints ++ "%!" ++ name ++ "(MISSING)", p.cursor, rest)
      | some v =>
        (p.complaints ++ (forValue verb p.directive).write verb v,
          { p.cursor with next := p.cursor.next + 1 }, rest)

/-- Fills the directives of the template, piece by piece, and tells how far the values are used up.
-/
def pieces (values : Array Value) (cursor : Cursor) (rs : List Rune) : List Text × Cursor :=
  match rs with
  | [] => ([], cursor)
  | r :: rest =>
    if r == .char '%' then
      let (t, cursor, after) := directive values cursor rest
      if after.length ≤ rest.length then
        let (ts, cursor) := pieces values cursor after
        (t :: ts, cursor)
      else ([t], cursor)
    else
      let (ts, cursor) := pieces values cursor rest
      (⟨r.encode⟩ :: ts, cursor)
termination_by rs.length

/-- A value with its type. -/
private def typed : Value → Text
  | .null => "<nil>"
  | v => v.typeName ++ "=" ++ ({} : Directive).write 'v' v

/-- Fills a template with values. -/
def fill (template : Text) (values : List Value) : Text :=
  let (ts, cursor) := pieces values.toArray {} template.runes
  let extra := values.drop cursor.next
  Text.concat ts ++
    if cursor.reordered || extra.isEmpty then ∅
    else "%!(EXTRA " ++ Text.join ", " (extra.map typed) ++ ")"

/-- A value by itself. -/
def plain (v : Value) : Text := ({} : Directive).write 'v' v

/-- Values with a space between neighbours. -/
def spaced (values : List Value) : Text := Text.join " " (values.map plain)

end Template

end Stopwatch
