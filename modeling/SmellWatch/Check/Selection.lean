import SmellWatch.Config.IncludeFilter
import SmellWatch.Document
import SmellWatch.Ignore.Surroundings
import SmellWatch.Path.Parts
/-! Which files a check is about.

A path that leads to a file stands for that file, whatever the rules say. One that leads
to a directory stands for the files below it that the include filter lets through, and
that are neither skipped nor below a skipped directory. Files are taken in the order of
their paths, each path once. -/

namespace SmellWatch

/-- A file to check, under the path that readers see. -/
structure Source where
  path : String
  content : String
deriving DecidableEq, Repr

/-- The document that a source is checked as. -/
def Source.document (s : Source) : DocumentId := ⟨s.path⟩

namespace Selection

/-- The path that stands for the standard input; there is nothing to check in it. -/
def standardInput : String := "-"

/-- The path of something below the place that another path leads to. -/
def pathBelow (path : String) (names : List String) : String :=
  Path.join path ("/".intercalate names)

/-- A path without a point and a slash in front. -/
def plain (path : String) : String :=
  if path.startsWith "./" then String.ofList (path.toList.drop 2) else path

/-- Whether nothing on the way from a directory to a file below it is skipped. -/
def reaches (s : Surroundings) (path : String) (root : Place) (names : List String) : Bool :=
  (List.range names.length).all fun n =>
    let way := names.take (n + 1)
    !s.skips (root ++ way) (plain (pathBelow path way)) (n + 1 < names.length)

/-- The paths of the files below a directory. -/
def filesIn (s : Surroundings) (d : Disk) (filter : IncludeFilter) (path : String)
    (root : Place) : List String :=
  (d.filesBelow root).filterMap fun p =>
    let names := p.drop root.length
    let file := pathBelow path names
    if reaches s path root names && filter.allows file then some file else none

/-- The paths of the files that a path stands for, unless it leads nowhere or the rules
above it cannot be read. -/
def filesAt? (s : Surroundings) (d : Disk) (filter : IncludeFilter) (path : String) :
    Option (List String) :=
  if Path.parts path = Path.parts standardInput then some []
  else
    match d.locate path with
    | .error _ => none
    | .ok p =>
      if d.isFile p then some [path]
      else if (s.around p).any (·.2.isFaulty) then none
      else some (filesIn s d filter path p)

/-- Every path once, of those in a row that are the same. -/
def once : List String → List String
  | [] => []
  | [p] => [p]
  | p :: q :: r =>
    if Path.parts p = Path.parts q then once (p :: r) else p :: once (q :: r)

/-- The paths of all files that some paths stand for. -/
def files? (env : Environment) (d : Disk) (filter : IncludeFilter) (paths : List String) :
    Option (List String) := do
  let s := Surroundings.ofDisk env d
  let found ← paths.mapM (filesAt? s d filter)
  return once (found.flatten.mergeSort fun p q => Path.comesBefore (Path.parts p) (Path.parts q))

/-- The files that hold text. -/
def sources (d : Disk) (files : List String) : List Source :=
  files.filterMap fun path =>
    (d.readText path).toOption.map fun content => ⟨Path.withoutPoint path, content⟩

end Selection

end SmellWatch
