import SmellWatch.Config.Text
import SmellWatch.Disk
import SmellWatch.Product
/-! Where the settings are found: in the file that is named, or else in the working
directory, or else in the home directory. Without any file the defaults apply.

* `load_missing`: a file that is named and not there is an error, although the defaults
  would do. -/

namespace SmellWatch

/-- Why there are no settings. -/
inductive LoadError
  | unreadable (path : String) (fault : Disk.Fault)
  /-- The file is no TOML, or does not fit the settings. -/
  | malformed (path : String)
deriving DecidableEq, Repr

namespace LoadError

def path : LoadError → String
  | unreadable path _ => path
  | malformed path => path

def message : LoadError → String
  | unreadable path fault => s!"failed to read config {path}: {fault.message}"
  | malformed path => s!"failed to parse config {path}"

end LoadError

namespace Config

/-- The file in the working directory. -/
def localPath : String := "." ++ Product.name ++ ".toml"

/-- The directory in the home directory. -/
def homeDirectory : String := "." ++ Product.name

def homePath? (d : Disk) : Option String :=
  d.underHome (Path.join homeDirectory "config.toml")

/-- The settings in a file. -/
def loadFrom (env : Environment) (d : Disk) (path : String) : Except LoadError Config := do
  let text ← (d.readText path).mapError (.unreadable path)
  match parse? env text with
  | some c => return c
  | none => throw (.malformed path)

/-- The settings, and the path of the file in which they stand. -/
def load (env : Environment) (d : Disk) (named : Option String) :
    Except LoadError (Config × Option String) :=
  let file := named.or ((localPath :: (homePath? d).toList).find? d.pathExists)
  match file with
  | some path => (loadFrom env d path).map (·, some path)
  | none => .ok ({}, none)

theorem load_missing (env : Environment) (d : Disk) (path : String)
    (h : d.locate path = .error .missing) :
    load env d (some path) = .error (.unreadable path .missing) := by
  simp only [load, loadFrom, Disk.readText, Disk.readBytes, h, Option.or]
  rfl

end Config

end SmellWatch
