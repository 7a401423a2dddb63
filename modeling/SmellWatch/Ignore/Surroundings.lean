import SmellWatch.Disk
import SmellWatch.Environment
import SmellWatch.Ignore.Rule
/-! Which files the surroundings of a place say to skip.

Rules stand in `.ignore` in any directory, and inside of a repository in `.gitignore`
and in the repository's own list of exclusions; a user may have rules for all
repositories. Rules of the first kind win over the second, those over the third, and so
on; within a kind the deepest directory wins. A repository hides the rules of the
repositories around it. What no rule speaks of is skipped if it is hidden. -/

namespace SmellWatch

/-- The rules that stand in one directory. -/
structure DirectoryRules where
  plain : IgnoreList
  shared : IgnoreList
  excluded : IgnoreList
  isRepository : Bool
deriving Repr

namespace DirectoryRules

def listAt (d : Disk) (p : Place) : IgnoreList := ((d.file? p).map .ofBytes).getD .empty

def ofPlace (d : Disk) (p : Place) : DirectoryRules :=
  { plain := listAt d (p ++ [".ignore"])
    shared := listAt d (p ++ [".gitignore"])
    excluded := listAt d (p ++ [".git", "info", "exclude"])
    isRepository := d.holds (p ++ [".git"]) || d.holds (p ++ [".jj"]) }

def isFaulty (r : DirectoryRules) : Bool :=
  r.plain.faulty || r.shared.faulty || r.excluded.faulty

/-- There is nothing in the directory that says anything. -/
def isIdle (r : DirectoryRules) : Bool :=
  !r.isRepository && !r.isFaulty &&
    r.plain.rules.isEmpty && r.shared.rules.isEmpty && r.excluded.rules.isEmpty

end DirectoryRules

/-! ## The rules of a user -/

namespace UserRules

/-- The directory of the settings that are not the program's own. -/
def settingsDirectory? (env : Environment) (d : Disk) : Option String :=
  match env.get? "XDG_CONFIG_HOME" with
  | some path => if path.isEmpty then d.underHome ".config" else some path
  | none => d.underHome ".config"

/-- A byte that parts words. -/
def isGap (c : Char) : Bool := c = ' ' || ('\t' ≤ c && c ≤ '\r')

/-- The path in a line that names the file with the rules: the key, whatever its case,
an equals sign, and one word that may stand in quotation marks. -/
def excludesInLine? (line : List Char) : Option String :=
  let trimmed := fun cs : List Char =>
    ((cs.dropWhile isGap).reverse.dropWhile isGap).reverse
  let key := "excludesfile"
  let line := trimmed line
  if Text.asciiLower (String.ofList (line.take key.length)) ≠ key then none
  else
    match (line.drop key.length).dropWhile isGap with
    | '=' :: r =>
      let opened := match r.dropWhile isGap with
        | '"' :: q => if (trimmed q).isEmpty then '"' :: q else q
        | q => q
      let word := trimmed opened
      let word :=
        if word.length > 1 ∧ word.getLast? = some '"' then trimmed word.dropLast else word
      if word.isEmpty ∨ word.any isGap then none else some (String.ofList word)
    | _ => none

/-- The path of the file with the rules, as a file of settings names it. -/
def excludesIn? (d : Disk) (settings : Option String) : Option String := do
  let bytes ← (d.readBytes (← settings)).toOption
  let found ← (Text.charLines (Text.decodeLossy bytes).toList).findSome? excludesInLine?
  match d.home with
  | some home => return home.intercalate (found.splitOn "~")
  | none => return found

/-- The path of the file with the rules for all repositories. -/
def path? (env : Environment) (d : Disk) : Option String :=
  let directory := settingsDirectory? env d
  (excludesIn? d (d.underHome ".gitconfig")).or <|
    (excludesIn? d (directory.map (Path.join · "git/config"))).or
      (directory.map (Path.join · "git/ignore"))

def ofDisk (env : Environment) (d : Disk) : IgnoreList :=
  match (path? env d).map d.readBytes with
  | some (.ok bytes) => .ofBytes bytes
  | _ => .empty

end UserRules

/-! ## All rules together -/

structure Surroundings where
  /-- The directories in which something stands. -/
  directories : List (Place × DirectoryRules)
  user : IgnoreList
deriving Repr

namespace Surroundings

/-- The places above a place, the nearest first. -/
def above (p : Place) : List Place :=
  ((List.range p.length).map fun n => p.take n).reverse

def ofDisk (env : Environment) (d : Disk) : Surroundings :=
  let places := (d.entries.flatMap fun (q, _) => above q).eraseDups
  let directories := (places.map fun p => (p, DirectoryRules.ofPlace d p)).filter
    fun x => !x.2.isIdle
  ⟨directories, UserRules.ofDisk env d⟩

/-- The rules in the directories above a place, the nearest first. -/
def around (s : Surroundings) (p : Place) : List (Place × DirectoryRules) :=
  (above p).filterMap fun q => (s.directories.lookup q).map (q, ·)

/-- The directories up to the first that is a repository. -/
def uptoRepository : List (Place × DirectoryRules) → List (Place × DirectoryRules)
  | [] => []
  | x :: r => if x.2.isRepository then [x] else x :: uptoRepository r

/-- The first that some lists say about a place. -/
def firstVerdict? (lists : List (Place × IgnoreList)) (p : Place) (isDirectory : Bool) :
    Option Verdict :=
  lists.findSome? fun (q, list) =>
    list.verdict? (Text.encode ("/".intercalate (p.drop q.length))) isDirectory

/-- What the rules say about a place that was reached by a path. -/
def verdict? (s : Surroundings) (p : Place) (path : String) (isDirectory : Bool) :
    Option Verdict :=
  let around := s.around p
  let near := uptoRepository around
  let first := fun (from_ : List (Place × DirectoryRules)) (kind : DirectoryRules → IgnoreList) =>
    firstVerdict? (from_.map fun (q, r) => (q, kind r)) p isDirectory
  (first around (·.plain)).or <|
    if around.any (·.2.isRepository) then
      (first near (·.shared)).or <| (first near (·.excluded)).or <|
        s.user.verdict? (Text.encode path) isDirectory
    else none

/-- Whether a place is skipped. -/
def skips (s : Surroundings) (p : Place) (path : String) (isDirectory : Bool) : Bool :=
  match s.verdict? p path isDirectory with
  | some v => v = .skip
  | none => (p.getLast?.getD "").startsWith "."

end Surroundings

end SmellWatch
