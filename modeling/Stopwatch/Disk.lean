import Stopwatch.Fault
import Stopwatch.Path

/-!
# Files and directories

A disk is a list of directories and a list of files with their contents, each under the names that
lead to it. A path is walked name by name: `.` stays, `..` goes up, and every name on the way must
be a directory. So `a/../b` needs a directory `a`, although its short form `b` does not.
-/

namespace Stopwatch

/-- Directories and files, each by the names on the way to it. -/
structure Disk where
  directories : List (List Text) := []
  files : List (List Text × Text) := []
deriving Inhabited

namespace Disk

/-- Why a path cannot be used. -/
inductive Problem where
  | missing
  | notDirectory
  | isDirectory
  /-- Something that is no directory stands where a directory is to be made. -/
  | taken
  | nameTooLong
  /-- No name can hold a zero byte. -/
  | invalid
deriving DecidableEq

/-- The name of a problem in messages. -/
def Problem.text : Problem → Text
  | missing => "no such file or directory"
  | notDirectory => "not a directory"
  | isDirectory => "is a directory"
  | taken => "file exists"
  | nameTooLong => "file name too long"
  | invalid => "invalid argument"

/-- What a path leads to. -/
inductive Node where
  | directory (names : List Text)
  | file (names : List Text)
  /-- Nothing, in a directory that exists. -/
  | vacant (names : List Text)
deriving DecidableEq

/-- True if the names lead to a directory. -/
def isDirectory (d : Disk) (names : List Text) : Bool :=
  names.isEmpty || d.directories.contains names

/-- What a name in a directory is. -/
def lookup (d : Disk) (names : List Text) : Node :=
  if d.isDirectory names then .directory names
  else if d.files.any fun f => f.1 == names then .file names
  else .vacant names

/-- Walks the names of a path, from a directory on. -/
def walk (d : Disk) (place : List Text) : List Text → Except Problem Node
  | [] => .ok (.directory place)
  | name :: rest =>
    if name.isEmpty || name == "." then walk d place rest
    else if name == ".." then walk d place.dropLast rest
    else if 255 < name.size then .error .nameTooLong
    else match d.lookup (place ++ [name]) with
      | .directory names => walk d names rest
      | .file names => if rest.isEmpty then .ok (.file names) else .error .notDirectory
      | .vacant names =>
        if rest.isEmpty then .ok (.vacant names)
        else if rest.all Text.isEmpty then .ok (.vacant names)
        else .error .missing

/-- The number of bytes from which on a path is too long. -/
def pathLimit : Nat := 4096

/-- What a path leads to. -/
def find (d : Disk) (path : Text) : Except Problem Node :=
  if path.bytes.contains 0 then .error .invalid
  else if pathLimit ≤ path.size then .error .nameTooLong
  else d.walk [] (path.split 0x2f)

/-- A fault of an operation on a path. -/
def fault (operation path : Text) (p : Problem) : Fault :=
  .plain (operation ++ " " ++ path ++ ": " ++ p.text)

/-- Makes a directory and all that lead to it, given the names of a path in short form from the last
name backwards. The path of a directory on the way ends in a slash. -/
def makeFrom (root : Text) (d : Disk) (ending : Text) : List Text → Except Fault Disk
  | [] => .ok d
  | name :: before => do
    let path := root ++ Text.join "/" (name :: before).reverse ++ ending
    match d.find path with
    | .ok (.directory _) => .ok d
    | .ok (.file _) => .error (fault "mkdir" path .notDirectory)
    | _ =>
      let d ← makeFrom root d "/" before
      match d.find path with
      | .ok (.vacant names) => .ok { d with directories := names :: d.directories }
      | .ok _ => .ok d
      | .error .notDirectory => .error (fault "mkdir" path .taken)
      | .error p => .error (fault "mkdir" path p)

/-- Makes a directory and all that lead to it. The path is in short form. -/
def makeDirectories (d : Disk) (path : Text) : Except Fault Disk :=
  if path.bytes.head? == some 0x2f then
    makeFrom "/" d ∅ ((path.drop 1).split 0x2f).reverse
  else makeFrom ∅ d ∅ (path.split 0x2f).reverse

/-- The disk with a file's content set. -/
def put (d : Disk) (names : List Text) (content : Text) : Disk :=
  { d with files := (names, content) :: d.files.filter fun f => f.1 != names }

/-- Creates or empties a file, and gives the names that lead to it. -/
def create (d : Disk) (path : Text) : Except Fault (Disk × List Text) :=
  match d.find path with
  | .ok (.file names) => .ok (d.put names ∅, names)
  | .ok (.vacant names) =>
    if path.bytes.getLast? == some 0x2f then .error (fault "open" path .isDirectory)
    else .ok (d.put names ∅, names)
  | .ok (.directory _) => .error (fault "open" path .isDirectory)
  | .error p => .error (fault "open" path p)

/-- Saves a document under a path, making the directories that lead to it. A document that cannot be
written leaves an empty file behind. No path, no file. -/
def saveDocument (d : Disk) (path : Text) (document : Except Fault Text) :
    Except Fault Unit × Disk :=
  if path.isEmpty then (.ok (), d)
  else
    let directory := Path.directory path
    let made := if directory == "." then .ok d else d.makeDirectories directory
    match made with
    | .error f => (.error (f.inContext "failed to create directory"), d)
    | .ok d =>
      match d.create path with
      | .error f => (.error (f.inContext "failed to create output file"), d)
      | .ok (d, names) =>
        match document with
        | .error f => (.error (f.inContext "failed to write report"), d)
        | .ok text => (.ok (), d.put names text)

/-- Replaces a file as a whole: it is written under a temporary name beside the path, which then
takes the place of the file. The temporary name ends in a number of up to ten digits that is not
known beforehand, so messages show an asterisk for it. -/
def replaceFile (d : Disk) (path content : Text) : Except Fault Disk := do
  let directory := Path.directory path
  let temporary :=
    directory ++ (if directory.bytes.getLast? == some 0x2f then (∅ : Text) else "/") ++
      Path.name path
  if let .error p := d.find (temporary ++ "0000000000") then
    throw (fault "open" (temporary ++ "*") p)
  let (d, names) ← d.create path
  return d.put names content

/-- The files below a directory with the rest of the way to them, sorted by it. -/
def below (d : Disk) (place : List Text) : List (Text × Text) :=
  let inside := d.files.filter fun f => place.isPrefixOf f.1
  (inside.map fun f => (Text.join "/" (f.1.drop place.length), f.2)).mergeSort fun a b => a.1.le b.1

end Disk

end Stopwatch
