import SmellWatch.Check
/-! The command line: which command is given, and with what.

Options stand anywhere behind the command, in two words or in one with an equals sign;
each may be given once. A lone hyphen is an ordinary word, and after two hyphens every
word is one. What is wrong first, or asks for help first, decides. -/

namespace SmellWatch

/-- What the program is asked to do. -/
inductive Command
  | check (o : Check.Options)
  /-- A session with an editor. -/
  | lsp (config : Option String)
deriving DecidableEq, Repr

namespace CommandLine

/-- Why no command runs. -/
inductive Stop
  | help
  | version
  | fault
deriving DecidableEq, Repr

/-- What a command takes. -/
structure Grammar where
  /-- The options with a value, each with the values it takes. -/
  valued : List (String × (String → Bool))
  flags : List String
  takesPaths : Bool

/-- What was given so far. -/
structure Given where
  values : List (String × String) := []
  flags : List String := []
  paths : List String := []
deriving DecidableEq, Repr

namespace Grammar

/-- Whether a word begins like an option. -/
def isOption (word : String) : Bool := word.startsWith "-" && word != "-"

/-- A word that is no option. -/
def addPath (g : Grammar) (x : Given) (word : String) : Except Stop Given :=
  if g.takesPaths ∧ !word.isEmpty then .ok { x with paths := x.paths ++ [word] }
  else .error .fault

def addValue (accepts : String → Bool) (x : Given) (name value : String) : Except Stop Given :=
  if accepts value ∧ (x.values.lookup name).isNone then
    .ok { x with values := x.values ++ [(name, value)] }
  else .error .fault

def addFlag (g : Grammar) (x : Given) (name : String) : Except Stop Given :=
  if name = "help" then .error .help
  else if name ∈ g.flags ∧ name ∉ x.flags then .ok { x with flags := x.flags ++ [name] }
  else .error .fault

/-- The name and the value in a word behind its two hyphens. -/
def parted (word : String) : String × Option String :=
  let cs := word.toList.drop 2
  let name := String.ofList (cs.takeWhile (· ≠ '='))
  (name, if cs.contains '=' then some (String.ofList ((cs.dropWhile (· ≠ '=')).drop 1)) else none)

/-- Reads the words behind a command. -/
def read (g : Grammar) : Given → List String → Except Stop Given
  | x, [] => .ok x
  | x, word :: rest =>
    if word = "--" then rest.foldlM g.addPath x
    else if word.startsWith "--" then
      let (name, value) := parted word
      match g.valued.lookup name with
      | some accepts =>
        match value with
        | some v => do read g (← addValue accepts x name v) rest
        | none =>
          match rest with
          | [] => .error .fault
          | v :: others =>
            if isOption v then .error .fault else do read g (← addValue accepts x name v) others
      | none => if value.isSome then .error .fault else do read g (← g.addFlag x name) rest
    else if isOption word then .error (if word.startsWith "-h" then .help else .fault)
    else do read g (← g.addPath x word) rest

end Grammar

/-! ## The commands -/

def isPath (word : String) : Bool := !word.isEmpty

def format? : String → Option Report.Format
  | "human" => some .human
  | "json" => some .json
  | _ => none

def checkGrammar : Grammar :=
  { valued := [("format", fun v => (format? v).isSome), ("config", isPath)]
    flags := ["offline"]
    takesPaths := true }

def lspGrammar : Grammar := { valued := [("config", isPath)], flags := [], takesPaths := false }

/-- Without a path the working directory is checked. -/
def checkOptions (x : Given) : Check.Options :=
  { paths := if x.paths.isEmpty then ["."] else x.paths
    format := ((x.values.lookup "format").bind format?).getD .human
    config := x.values.lookup "config"
    offline := "offline" ∈ x.flags }

def parse : List String → Except Stop Command
  | "check" :: rest => (checkGrammar.read {} rest).map fun x => .check (checkOptions x)
  | "lsp" :: rest => (lspGrammar.read {} rest).map fun x => .lsp (x.values.lookup "config")
  | ["help"] | ["help", "check"] | ["help", "lsp"] | ["help", "help"] => .error .help
  | word :: _ =>
    if word = "--help" ∨ word.startsWith "-h" then .error .help
    else if word = "--version" ∨ word.startsWith "-V" then .error .version
    else .error .fault
  | [] => .error .fault

end CommandLine

end SmellWatch
