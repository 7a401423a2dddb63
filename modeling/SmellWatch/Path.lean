import SmellWatch.Text.Blank
/-! Slash-separated paths.

Empty components and `.` components mean nothing; the last component that is no
`..` is the file name, and what follows the last point in it is the extension,
unless the point comes first. -/

namespace SmellWatch.Path

/-- The pieces between slashes, empty ones included. -/
def pieces (cs : List Char) : List (List Char) :=
  cs.foldr
    (fun c acc =>
      if c = '/' then [] :: acc
      else match acc with
        | [] => [[c]]
        | p :: r => (c :: p) :: r)
    [[]]

/-- The pieces of a path. -/
def split (s : String) : List String := (pieces s.toList).map String.ofList

def isAbsolute (s : String) : Bool := s.toList.head? == some '/'

/-- The components that name something. -/
def components (s : String) : List String :=
  (split s).filter fun p => !p.isEmpty && p != "."

def fileName? (s : String) : Option String :=
  match (components s).getLast? with
  | some p => if p = ".." then none else some p
  | none => none

/-- What stands after the last point, if something stands before that point. -/
def extensionOf? (name : String) : Option String :=
  let backwards := name.toList.reverse
  let tail := backwards.takeWhile (· ≠ '.')
  let head := (backwards.drop (tail.length + 1)).reverse
  if name = ".." || tail.length = backwards.length || head.isEmpty then none
  else some (String.ofList tail.reverse)

def extension? (s : String) : Option String := (fileName? s).bind extensionOf?

/-- `child` below `base`, or `child` itself if it is absolute. -/
def join (base child : String) : String :=
  if isAbsolute child then child
  else if base.isEmpty then child
  else if base.toList.getLast? == some '/' then base ++ child
  else base ++ "/" ++ child

end SmellWatch.Path
