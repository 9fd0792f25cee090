import Stopwatch.Text

/-!
# Paths

A path in short form has no repeated slashes and no `.`, and a `..` only at its beginning.
-/

namespace Stopwatch

namespace Path

/-- The names of a path in short form, those before already in short form and the last one first. -/
def shortNames (rooted : Bool) : List Text → List Text → List Text
  | done, [] => done.reverse
  | done, name :: rest =>
    if name.isEmpty || name == "." then shortNames rooted done rest
    else if name == ".." then
      match done with
      | last :: before =>
        if last == ".." then shortNames rooted (name :: done) rest
          else shortNames rooted before rest
      | [] => if rooted then shortNames rooted [] rest else shortNames rooted [name] rest
    else shortNames rooted (name :: done) rest

/-- The path in short form. -/
def clean (path : Text) : Text :=
  let rooted := path.bytes.head? == some 0x2f
  let short := Text.join "/" (shortNames rooted [] (path.split 0x2f))
  if rooted then "/" ++ short else if short.isEmpty then "." else short

/-- The directory part of a path, in short form. -/
def directory (path : Text) : Text :=
  let names := path.split 0x2f
  clean (Text.join "/" (names.dropLast ++ if 1 < names.length then [∅] else []))

/-- The last name of a path. -/
def name (path : Text) : Text :=
  let names := (path.split 0x2f).filter fun n => !n.isEmpty
  names.getLast?.getD (if path.isEmpty then "." else "/")

end Path

end Stopwatch
