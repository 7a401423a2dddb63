import SmellWatch.Path
import SmellWatch.Text.Utf8
/-! A disk as a value: what its files hold, and the directory that relative paths start
from.

A place is the list of names on the way from the root. A path is followed piece by
piece: `.` and an empty piece stay where they are, `..` goes back, a name goes on; each
of them needs a directory to stand in. -/

namespace SmellWatch

abbrev Place := List String

structure Disk where
  /-- Files with their bytes, and directories, which have none; a directory that has
  something in it need not be listed. -/
  entries : List (Place × Option (List UInt8))
  workingDirectory : Place
  /-- The path of the home directory. -/
  home : Option String
deriving Repr

namespace Disk

/-- Why a path cannot be read. -/
inductive Fault
  | missing
  | notDirectory
  | directory
  | notText
deriving DecidableEq, Repr

namespace Fault

def message : Fault → String
  | missing => "No such file or directory (os error 2)"
  | notDirectory => "Not a directory (os error 20)"
  | directory => "Is a directory (os error 21)"
  | notText => "stream did not contain valid UTF-8"

end Fault

/-! ## Places -/

def file? (d : Disk) (p : Place) : Option (List UInt8) := (d.entries.lookup p).join

def isFile (d : Disk) (p : Place) : Bool := (d.file? p).isSome

/-- The root, a directory that is listed, or one that has something in it. -/
def isDirectory (d : Disk) (p : Place) : Bool :=
  p.isEmpty || d.entries.any fun (q, content) =>
    (q == p && content.isNone) || (p.isPrefixOf q && p.length < q.length)

def holds (d : Disk) (p : Place) : Bool := d.isFile p || d.isDirectory p

/-- The places of all files below a directory. -/
def filesBelow (d : Disk) (p : Place) : List Place :=
  d.entries.filterMap fun (q, content) =>
    if p.isPrefixOf q && p.length < q.length && content.isSome then some q else none

/-! ## Paths -/

/-- One piece of a path, seen from a place. -/
def follow (d : Disk) (p : Place) (piece : String) : Except Fault Place :=
  if d.isDirectory p then
    if piece = "" ∨ piece = "." then .ok p
    else if piece = ".." then .ok p.dropLast
    else .ok (p ++ [piece])
  else .error (if d.isFile p then .notDirectory else .missing)

/-- The place that a path leads to. -/
def locate (d : Disk) (path : String) : Except Fault Place := do
  if path.isEmpty then throw .missing
  let start := if Path.isAbsolute path then [] else d.workingDirectory
  let p ← (Path.split path).foldlM d.follow start
  if d.holds p then return p else throw .missing

def pathExists (d : Disk) (path : String) : Bool := (d.locate path).toOption.isSome

def readBytes (d : Disk) (path : String) : Except Fault (List UInt8) := do
  match d.file? (← d.locate path) with
  | some bytes => return bytes
  | none => throw .directory

def readText (d : Disk) (path : String) : Except Fault String := do
  match Text.decode? (← d.readBytes path) with
  | some text => return text
  | none => throw .notText

/-- A path below the home directory. -/
def underHome (d : Disk) (path : String) : Option String := d.home.map (Path.join · path)

end Disk

end SmellWatch
