import Mathlib.Data.List.Nodup
import Mathlib.Data.List.TakeWhile
import Stopwatch.Settings.CommandLine

/-!
# How flags are written

A command line without other arguments is a list of written flags (`Written`), each with one or two
marks before its name and its value after `=`, in the next argument or, for a switch, nowhere; the
mark that ends the flags may stand after them (`Spells`). `exists_spells` says that
`CommandLine.read` accepts nothing else without other arguments, and `read_eq_ok_iff_of_spells` that
it accepts all of these whose values can be read, and gives each flag the value that its text stands
for, in the order in which they are written.
-/

namespace Stopwatch.Settings

/-- The marks before a name. -/
def marks (doubled : Bool) : Text := if doubled then "--" else "-"

/-- What stands after the name of a flag. -/
inductive Spelling where
  /-- A value after `=`. -/
  | joined (value : Text)
  /-- A value as the next argument. -/
  | apart (value : Text)
  /-- Nothing, by which a switch is put on. -/
  | alone

/-- A flag as it is written on the command line. -/
structure Written where
  flag : Flag
  /-- Two marks stand before the name, and not one. -/
  doubled : Bool
  spelling : Spelling

namespace Written

/-- The name with its marks. -/
def head (w : Written) : Text := marks w.doubled ++ w.flag.name

def value (w : Written) : Text :=
  match w.spelling with
  | .joined v => v
  | .apart v => v
  | .alone => "true"

def arguments (w : Written) : List Text :=
  match w.spelling with
  | .joined v => [w.head ++ "=" ++ v]
  | .apart v => [w.head, v]
  | .alone => [w.head]

/-- The flag exists, and a flag of its kind can be written in this way. -/
def Fits (w : Written) : Prop :=
  w.flag ∈ flags ∧
    match w.spelling with
    | .joined _ => True
    | .apart _ => w.flag.key.kind ≠ .switch
    | .alone => w.flag.key.kind = .switch

/-- The text of the value stands for the value that is given. -/
def Gives (w : Written) (g : Given) : Prop := w.flag.give w.value = .ok g

end Written

/-- The arguments are written flags, which the mark that ends the flags may follow. -/
inductive Spells : List Text → List Written → Prop
  | nil : Spells [] []
  | terminator : Spells ["--"] []
  | cons {w : Written} {ws : List Written} {args : List Text} :
    w.Fits → Spells args ws → Spells (w.arguments ++ args) (w :: ws)

/-! ## Names -/

theorem names_nodup : (flags.map Flag.name).Nodup := by decide +kernel

theorem flag?_eq_some_iff {name : Text} {f : Flag} :
    flag? name = some f ↔ f ∈ flags ∧ f.name = name := by
  constructor
  · intro h
    exact ⟨List.mem_of_find?_eq_some h, by simpa using List.find?_some h⟩
  · rintro ⟨hf, rfl⟩
    unfold flag?
    cases h : flags.find? fun g => g.name == f.name with
    | none => simpa using List.find?_eq_none.mp h f hf
    | some g =>
      have hname : g.name = f.name := by simpa using List.find?_some h
      have hg : g = f := List.inj_on_of_nodup_map names_nodup (List.mem_of_find?_eq_some h) hf hname
      rw [hg]

/-- A name is not empty, has no `=` in it and does not begin with the mark of a flag. -/
def IsName (name : Text) : Prop :=
  ∃ b bs, name.bytes = b :: bs ∧ b ≠ 0x2d ∧ b ≠ 0x3d ∧ 0x3d ∉ bs

theorem isName_of_mem {f : Flag} (hf : f ∈ flags) : IsName f.name := by
  have hall : ∀ f ∈ flags, ∃ b ∈ f.name.bytes.head?, b ≠ 0x2d ∧ b ≠ 0x3d ∧
      0x3d ∉ f.name.bytes.tail := by
    decide +kernel
  obtain ⟨b, hb, hmark, heq, htail⟩ := hall f hf
  exact ⟨b, _, (List.eq_cons_of_mem_head? hb), hmark, heq, htail⟩

/-! ## One argument -/

theorem splitValue_name {name : Text} (h : IsName name) : splitValue name = (name, none) := by
  obtain ⟨b, bs, hbytes, -, -, hbs⟩ := h
  have hdrop : bs.dropWhile (· != 0x3d) = [] := by
    rw [List.dropWhile_eq_nil_iff]
    intro x hx
    simp only [bne_iff_ne, ne_eq]
    rintro rfl
    exact hbs hx
  simp only [splitValue, hbytes, hdrop]

theorem splitValue_joined {name : Text} (h : IsName name) (v : Text) :
    splitValue (name ++ "=" ++ v) = (name, some v) := by
  obtain ⟨b, bs, hbytes, -, -, hbs⟩ := h
  have hall : ∀ x ∈ bs, (x != 0x3d) = true := by
    intro x hx
    simp only [bne_iff_ne, ne_eq]
    rintro rfl
    exact hbs hx
  have hjoined : (name ++ "=" ++ v).bytes = b :: (bs ++ 0x3d :: v.bytes) := by
    show name.bytes ++ [0x3d] ++ v.bytes = _
    rw [hbytes]
    simp
  have hdrop : (bs ++ 0x3d :: v.bytes).dropWhile (· != 0x3d) = 0x3d :: v.bytes := by
    rw [List.dropWhile_append_of_pos hall]
    simp
  have htake : (bs ++ 0x3d :: v.bytes).takeWhile (· != 0x3d) = bs := by
    rw [List.takeWhile_append_of_pos hall]
    simp
  simp only [splitValue, hjoined, hdrop, htake, ← hbytes]

theorem eq_of_splitValue_none {body name : Text} (h : splitValue body = (name, none)) :
    body = name := by
  obtain ⟨bytes⟩ := body
  cases bytes with
  | nil => exact (Prod.mk.inj h).1
  | cons b bs =>
    simp only [splitValue] at h
    split at h
    · exact (Prod.mk.inj h).1
    · simp at h

theorem eq_of_splitValue_some {body name v : Text} (h : splitValue body = (name, some v)) :
    body = name ++ "=" ++ v := by
  obtain ⟨bytes⟩ := body
  cases bytes with
  | nil => simp [splitValue] at h
  | cons b bs =>
    simp only [splitValue] at h
    split at h
    · simp at h
    · next x value hdrop =>
      obtain ⟨hname, hv⟩ := Prod.mk.inj h
      -- The part that is not taken into the name begins with the `=`.
      have hx : x = 0x3d := by
        have hhead := List.head?_dropWhile_not (fun y : UInt8 => y != 0x3d) bs
        rw [hdrop] at hhead
        simpa using hhead
      have hsplit := List.takeWhile_append_dropWhile (p := fun y : UInt8 => y != 0x3d) (l := bs)
      rw [hdrop, hx] at hsplit
      rw [← hname, ← Option.some.inj hv]
      show Text.mk _ = Text.mk (b :: bs.takeWhile _ ++ [0x3d] ++ value)
      conv => lhs; rw [← hsplit]
      simp

theorem ofText_marks {body : Text} {b : UInt8} {bs : List UInt8}
    (hbody : body.bytes = b :: bs) (hmark : b ≠ 0x2d) (heq : b ≠ 0x3d) (doubled : Bool) :
    Argument.ofText (marks doubled ++ body) = .flag (splitValue body).1 (splitValue body).2 := by
  have hnamed : Argument.ofText.named (b :: bs) =
      .flag (splitValue body).1 (splitValue body).2 := by
    unfold Argument.ofText.named
    split
    · next h => exact absurd (List.cons.inj h).1 hmark
    · next h => exact absurd (List.cons.inj h).1 heq
    · next h => exact absurd h (by simp)
    · rw [← hbody]
  cases doubled with
  | true =>
    have hbytes : (marks true ++ body).bytes = 0x2d :: 0x2d :: b :: bs := by
      show [0x2d, 0x2d] ++ body.bytes = _
      rw [hbody]
      rfl
    rw [← hnamed, Argument.ofText, hbytes]
    rfl
  | false =>
    have hbytes : (marks false ++ body).bytes = 0x2d :: b :: bs := by
      show [0x2d] ++ body.bytes = _
      rw [hbody]
      rfl
    rw [← hnamed, Argument.ofText, hbytes]
    split
    · next h => exact absurd (List.cons.inj (List.cons.inj h).2).1 hmark
    · next h => exact absurd (List.cons.inj (List.cons.inj h).2).1 hmark
    · next h => rw [(List.cons.inj h).2]
    · next h => exact absurd rfl (h _ _)

/-- A flag is read off an argument that consists of marks and the parts of the flag. -/
theorem exists_marks_of_ofText {t name : Text} {value : Option Text}
    (h : Argument.ofText t = .flag name value) :
    ∃ doubled body, t = marks doubled ++ body ∧ splitValue body = (name, value) := by
  have hnamed : ∀ body, Argument.ofText.named body = .flag name value →
      splitValue ⟨body⟩ = (name, value) := by
    intro body hbody
    unfold Argument.ofText.named at hbody
    split at hbody
    · simp at hbody
    · simp at hbody
    · simp at hbody
    · obtain ⟨h1, h2⟩ := Argument.flag.inj hbody
      exact Prod.ext h1 h2
  obtain ⟨bytes⟩ := t
  unfold Argument.ofText at h
  split at h
  · simp at h
  · next body _ hbytes => exact ⟨true, ⟨body⟩, congrArg Text.mk hbytes, hnamed body h⟩
  · next b bs _ _ hbytes => exact ⟨false, ⟨b :: bs⟩, congrArg Text.mk hbytes, hnamed _ h⟩
  · simp at h

theorem eq_of_ofText_terminator {t : Text} (h : Argument.ofText t = .terminator) : t = "--" := by
  have hnamed : ∀ body, Argument.ofText.named body ≠ .terminator := by
    intro body
    unfold Argument.ofText.named
    split <;> simp
  obtain ⟨bytes⟩ := t
  unfold Argument.ofText at h
  split at h
  · next hbytes => exact congrArg Text.mk hbytes
  · exact absurd h (hnamed _)
  · exact absurd h (hnamed _)
  · simp at h

theorem ofText_head {w : Written} (hw : w.flag ∈ flags) :
    Argument.ofText w.head = .flag w.flag.name none := by
  have hname := isName_of_mem hw
  obtain ⟨b, bs, hbytes, hmark, heq, -⟩ := id hname
  have hread := ofText_marks hbytes hmark heq w.doubled
  rw [splitValue_name hname] at hread
  exact hread

theorem ofText_joined {w : Written} (hw : w.flag ∈ flags) (v : Text) :
    Argument.ofText (w.head ++ "=" ++ v) = .flag w.flag.name (some v) := by
  have hname := isName_of_mem hw
  obtain ⟨b, bs, hbytes, hmark, heq, -⟩ := id hname
  have hbody : (w.flag.name ++ "=" ++ v).bytes = b :: (bs ++ [0x3d] ++ v.bytes) := by
    show w.flag.name.bytes ++ [0x3d] ++ v.bytes = _
    rw [hbytes]
    rfl
  have hread := ofText_marks hbody hmark heq w.doubled
  rw [splitValue_joined hname, ← Text.append_assoc, ← Text.append_assoc] at hread
  exact hread

/-! ## The command line -/

open CommandLine.read (follow)

/-- A written flag is read as such, whatever follows it. -/
theorem read_arguments {w : Written} (hw : w.Fits) (args : List Text) :
    CommandLine.read (w.arguments ++ args) =
      follow (w.flag.give w.value) (CommandLine.read args) := by
  obtain ⟨hflag, hform⟩ := hw
  have hfind : flag? w.flag.name = some w.flag := flag?_eq_some_iff.mpr ⟨hflag, rfl⟩
  obtain ⟨f, doubled, spelling⟩ := w
  cases spelling with
  | joined v =>
    have hread := ofText_joined hflag v
    simp only [Written.arguments, List.singleton_append, CommandLine.read, hread, hfind]
    rfl
  | apart v =>
    have hread := ofText_head hflag
    simp only [Written.arguments, List.cons_append, List.nil_append, CommandLine.read, hread, hfind]
    rfl
  | alone =>
    have hread := ofText_head hflag
    have hkind : f.key.kind = .switch := hform
    simp only [Written.arguments, List.singleton_append, CommandLine.read, hread, hfind, hkind]
    rfl

theorem follow_eq_ok_iff {first : Except FlagError Given}
    {rest : Except FlagError CommandLine} {line : CommandLine} :
    follow first rest = .ok line ↔ ∃ g c, first = .ok g ∧ rest = .ok c ∧ line = c.cons g := by
  constructor
  · intro h
    cases first with
    | error e => simp [follow] at h
    | ok g =>
      cases rest with
      | error e => simp [follow] at h
      | ok c => exact ⟨g, c, rfl, rfl, (Except.ok.inj h).symm⟩
  · rintro ⟨g, c, rfl, rfl, rfl⟩
    rfl

/-- **Written flags are accepted exactly if the text of each value can be read**, and give these
values in order. -/
theorem read_eq_ok_iff_of_spells {args : List Text} {ws : List Written}
    (h : Spells args ws) {line : CommandLine} :
    CommandLine.read args = .ok line ↔ line.rest = [] ∧
      List.Forall₂ Written.Gives ws line.given := by
  induction h generalizing line with
  | nil =>
    obtain ⟨given, rest⟩ := line
    simp [CommandLine.read, eq_comm, and_comm]
  | terminator =>
    obtain ⟨given, rest⟩ := line
    simp [CommandLine.read, show Argument.ofText "--" = .terminator by rfl, eq_comm, and_comm]
  | @cons w ws args hfits _ ih =>
    rw [read_arguments hfits, follow_eq_ok_iff]
    constructor
    · rintro ⟨g, c, hgive, hread, rfl⟩
      obtain ⟨hrest, hgs⟩ := ih.mp hread
      exact ⟨hrest, .cons hgive hgs⟩
    · obtain ⟨given, rest⟩ := line
      rintro ⟨hrest, hgs⟩
      cases hgs with
      | @cons _ g _ gs hgive hgs => exact ⟨g, ⟨gs, rest⟩, hgive, ih.mpr ⟨hrest, hgs⟩, rfl⟩

/-- One step of the other direction: what is read after a flag is written flags, by `ih`. -/
theorem exists_spells_cons {w : Written} (hw : w.Fits) {args : List Text} {line : CommandLine}
    (h : CommandLine.read (w.arguments ++ args) = .ok line) (hrest : line.rest = [])
    (ih : ∀ {line}, CommandLine.read args = .ok line → line.rest = [] → ∃ ws, Spells args ws) :
    ∃ ws, Spells (w.arguments ++ args) ws := by
  rw [read_arguments hw, follow_eq_ok_iff] at h
  obtain ⟨g, c, -, hread, rfl⟩ := h
  obtain ⟨ws, hspells⟩ := ih hread hrest
  exact ⟨w :: ws, .cons hw hspells⟩

/-- **A command line that is accepted without other arguments consists of written flags.** -/
theorem exists_spells {args : List Text} {line : CommandLine} (h : CommandLine.read args = .ok line)
    (hrest : line.rest = []) : ∃ ws, Spells args ws := by
  induction args using CommandLine.read.induct generalizing line with
  | case1 => exact ⟨[], .nil⟩
  | case2 t ts hplain =>
    obtain rfl : { rest := t :: ts } = line := by simpa [CommandLine.read, hplain] using h
    simp at hrest
  | case3 t ts hend =>
    obtain rfl : { rest := ts } = line := by simpa [CommandLine.read, hend] using h
    obtain rfl : ts = [] := hrest
    exact ⟨[], eq_of_ofText_terminator hend ▸ .terminator⟩
  | case4 t ts hbad => simp [CommandLine.read, hbad] at h
  | case5 t ts name value hflag hnone => simp [CommandLine.read, hflag, hnone] at h
  | case6 t name f hfind v ts hflag ih =>
    obtain ⟨hmem, rfl⟩ := flag?_eq_some_iff.mp hfind
    obtain ⟨doubled, body, rfl, hbody⟩ := exists_marks_of_ofText hflag
    obtain rfl := eq_of_splitValue_some hbody
    rw [← Text.append_assoc, ← Text.append_assoc] at h ⊢
    exact exists_spells_cons (w := ⟨f, doubled, .joined v⟩) ⟨hmem, trivial⟩ h hrest ih
  | case7 t name f hfind ts hkind hflag ih =>
    obtain ⟨hmem, rfl⟩ := flag?_eq_some_iff.mp hfind
    obtain ⟨doubled, body, rfl, hbody⟩ := exists_marks_of_ofText hflag
    obtain rfl := eq_of_splitValue_none hbody
    exact exists_spells_cons (w := ⟨f, doubled, .alone⟩) ⟨hmem, hkind⟩ h hrest ih
  | case8 t name f hfind v ts hkind hflag ih =>
    obtain ⟨hmem, rfl⟩ := flag?_eq_some_iff.mp hfind
    obtain ⟨doubled, body, rfl, hbody⟩ := exists_marks_of_ofText hflag
    obtain rfl := eq_of_splitValue_none hbody
    exact exists_spells_cons (w := ⟨f, doubled, .apart v⟩) ⟨hmem, hkind⟩ h hrest ih
  | case9 t name f hfind hkind hflag => simp [CommandLine.read, hflag, hfind] at h

theorem Spells.flag_mem {args : List Text} {ws : List Written} (h : Spells args ws) :
    ∀ w ∈ ws, w.flag ∈ flags := by
  induction h with
  | nil => exact List.forall_mem_nil _
  | terminator => exact List.forall_mem_nil _
  | cons hfits _ ih => exact List.forall_mem_cons.mpr ⟨hfits.1, ih⟩

end Stopwatch.Settings
