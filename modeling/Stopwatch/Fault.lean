import Stopwatch.Moment
import Stopwatch.Text.Quoted
import Stopwatch.Theme

/-!
# Faults

What can go wrong is a tree: leaves name a cause, and a fault can be set in the context of a
workload, wrapped in a message, or joined with others. The exit code of the program depends only on
which causes occur somewhere in the tree.
-/

namespace Stopwatch

/-- A disagreement between the primality predicate and a reference. -/
structure Mismatch where
  /-- The number on which the two differ. -/
  n : Int64
  /-- The predicate's answer. -/
  got : Bool
  /-- The reference's answer. -/
  want : Bool
  /-- The name of the reference. -/
  oracle : Text
deriving DecidableEq, Inhabited

/-- Something that went wrong. -/
inductive Fault where
  /-- A message and nothing else. -/
  | plain (message : Text)
  /-- The user's settings are wrong. -/
  | config (message : Text)
  /-- A benchmark failed for a cause. -/
  | benchmark (workload : Text) (cause : Fault)
  /-- A benchmark failed and no cause is known. -/
  | causeless (workload : Text)
  /-- An operation took too long. -/
  | timeout (operation : Text) (limit : Duration)
  /-- A field of a request is not acceptable. -/
  | validation (field message : Text)
  /-- The primality predicate disagrees with a reference. -/
  | mismatch (m : Mismatch)
  /-- A cause with text before and after its message. -/
  | wrapped (before : Text) (cause : Fault) (after : Text)
  /-- Several faults at once. -/
  | joined (members : List Fault)
  /-- The session was canceled. -/
  | canceled
  /-- The session ran into its deadline. -/
  | deadline
  /-- The user asked for the usage text. -/
  | help
  /-- A workload's name is not registered. -/
  | unknownWorkload
deriving Inhabited

/-- The exit code of the program. -/
abbrev ExitCode := Int

namespace ExitCode

def success : ExitCode := 0
def failure : ExitCode := 1
def timedOut : ExitCode := 2
def mismatch : ExitCode := 3
def config : ExitCode := 4
def canceled : ExitCode := 130

end ExitCode

namespace Mismatch

/-- The message of a disagreement. -/
def message (m : Mismatch) : Text :=
  "primality mismatch at n=" ++ Text.ofInt m.n.toInt ++ ": predicate=" ++
    Text.ofBool m.got ++ ", " ++ m.oracle ++ "=" ++ Text.ofBool m.want

end Mismatch

namespace Fault

/-! ## Messages -/

/-- What a message shows in place of a fault whose own message cannot be had. -/
def unreadable : Text :=
  "%!v(PANIC=Error method: runtime error: invalid memory address or nil pointer dereference)"

mutual

/-- The message of a fault. There is none where a benchmark without a name has no cause either. -/
def message? : Fault → Option Text
  | plain m => some m
  | config m => some m
  | benchmark w c =>
    if w.isEmpty then c.message? else some (w ++ ": " ++ c.message?.getD unreadable)
  | causeless w => if w.isEmpty then none else some (w ++ ": <nil>")
  | timeout op limit => some ("operation " ++ op.quote ++ " timed out after " ++ limit.text)
  | validation field m => some ("validation error for " ++ field.quote ++ ": " ++ m)
  | mismatch m => some m.message
  | wrapped before c after => some (before ++ c.message?.getD unreadable ++ after)
  | joined members => (messages? members).map (Text.join "\n")
  | canceled => some "context canceled"
  | deadline => some "context deadline exceeded"
  | help => some "flag: help requested"
  | unknownWorkload => some "unknown workload"

/-- The messages of several faults, if each has one. -/
def messages? : List Fault → Option (List Text)
  | [] => some []
  | f :: fs =>
    match f.message?, messages? fs with
    | some m, some ms => some (m :: ms)
    | _, _ => none

end

/-- The message as it appears inside other text. -/
def message (f : Fault) : Text := f.message?.getD unreadable

/-- A fault with a message in front of it. -/
def inContext (context : Text) (cause : Fault) : Fault := wrapped (context ++ ": ") cause ∅

/-! ## The tree -/

mutual

/-- True if some node of the tree satisfies `p`. -/
def any (p : Fault → Bool) (f : Fault) : Bool :=
  p f || match f with
    | benchmark _ c => any p c
    | wrapped _ c _ => any p c
    | joined members => anyOf p members
    | _ => false

/-- True if some node of one of the trees satisfies `p`. -/
def anyOf (p : Fault → Bool) : List Fault → Bool
  | [] => false
  | f :: fs => any p f || anyOf p fs

end

def isDeadline : Fault → Bool
  | deadline => true
  | _ => false

def isCanceled : Fault → Bool
  | canceled => true
  | _ => false

def isMismatch : Fault → Bool
  | mismatch _ => true
  | _ => false

def isHelp : Fault → Bool
  | help => true
  | _ => false

def isUnknownWorkload : Fault → Bool
  | unknownWorkload => true
  | _ => false

/-- True of a fault in what the user asked for. -/
def isConfig : Fault → Bool
  | config _ => true
  | _ => false

def isValidation : Fault → Bool
  | validation .. => true
  | _ => false

/-- True if the session's end, canceled or timed out, is among the causes. -/
def isContext (f : Fault) : Bool := f.any isCanceled || f.any isDeadline

/-- The faults met by going from each to its single cause; joined faults have none. -/
def chain : Fault → List Fault
  | f@(benchmark _ c) => f :: chain c
  | f@(wrapped _ c _) => f :: chain c
  | f => [f]

/-! ## Exit codes -/

/-- The exit code of a fault: a deadline counts before a cancellation, that before a disagreement,
and that before a fault in the settings. -/
def exitCode (f : Fault) : ExitCode :=
  if f.any isDeadline then ExitCode.timedOut
  else if f.any isCanceled then ExitCode.canceled
  else if f.any isMismatch then ExitCode.mismatch
  else if f.any isConfig || f.any isValidation then ExitCode.config
  else ExitCode.failure

/-- The exit code of a possible fault. -/
def exitCodeOf : Option Fault → ExitCode
  | none => ExitCode.success
  | some f => f.exitCode

/-- Answers a possible fault, `spent` after the start: what the user is told, and the exit code. -/
def handle (theme : Theme) (spent : Duration) : Option Fault → Text × ExitCode
  | none => (∅, ExitCode.success)
  | some f =>
    let after : Text :=
      if 0 < spent.toInt then " after " ++ (spent.round Duration.microsecond).text else ∅
    let code := f.exitCode
    let line :=
      if code == ExitCode.timedOut then
        theme.paint theme.error
          ("Status: Failure (Timeout). The run limit was exceeded" ++ after ++ ".")
      else if code == ExitCode.canceled then
        theme.paint theme.warning ("Status: Canceled" ++ after ++ ".")
      else if code == ExitCode.mismatch then
        theme.paint theme.error ("Status: Self-check failed: " ++ f.message)
      else theme.paint theme.error ("Status: Failure. " ++ f.message)
    (line ++ "\n", code)

/-- The answer has the exit code of the fault, whatever is told about it. -/
@[simp] theorem handle_snd (theme : Theme) (spent : Duration) (f : Option Fault) :
    (handle theme spent f).2 = exitCodeOf f := by
  cases f <;> rfl

/-- What the user is told about a fault, `spent` after the start. -/
def report (theme : Theme) (spent : Duration) (f : Fault) : Text := (handle theme spent (some f)).1

end Fault

end Stopwatch
