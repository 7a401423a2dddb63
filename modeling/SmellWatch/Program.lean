import SmellWatch.CommandLine
import SmellWatch.Rehearsal.Serving
/-! What a run of the program writes, and how it ends.

A log is kept in the home directory, or else in the working directory; standard output is for
reports and for the editor alone. -/

namespace SmellWatch

/-! ## The log -/

namespace LogFile

/-- The log, seen from the directory that it is kept in. -/
def names : List String := [Config.homeDirectory, "logs", Product.name ++ ".log"]

/-- Whether a log can be written below a directory: no file is in the way of a
directory, and no directory in the way of the file. -/
def fits (d : Disk) (base : Place) : Bool :=
  !d.isDirectory (base ++ names) &&
    (List.range names.length).all fun n => !d.isFile (base ++ names.take n)

/-- The directories that may keep the log, in the order in which they are tried. -/
def bases (d : Disk) : List Place :=
  (d.home.toList.filterMap fun home => (d.locate home).toOption) ++ [d.workingDirectory]

/-- The place of the log, if it can be written anywhere. -/
def place? (d : Disk) : Option Place := ((bases d).find? (fits d)).map (· ++ names)

end LogFile

/-! ## Runs -/

namespace Program

/-- How a run ends. -/
structure Outcome where
  exit : Nat
  output : String
deriving DecidableEq, Repr

/-- Nothing could be done; why, is not for standard output. -/
def failure : Outcome := ⟨2, ""⟩

/-- A check ends well if it found no error. -/
def ofReport (format : Report.Format) (r : Report) : Outcome :=
  ⟨if r.hasErrors then 1 else 0, r.render format⟩

variable {σ : Type}

def check (env : Environment) (d : Disk) (network : Http.Network σ) (state : σ)
    (o : Check.Options) : Outcome × σ :=
  match Check.report env d network state o with
  | (.ok r, state) => (ofReport o.format r, state)
  | (.error _, state) => (failure, state)

/-! ## Sessions with an editor -/

/-- The session under the settings of the disk. -/
def session? (env : Environment) (d : Disk) (config : Option String) :
    Option (Session RemoteService) := do
  let (c, _) ← (Config.load env d config).toOption
  let connect := fun c : Config => RemoteService.ofSettings (.ofConfig env c)
  (Session.ofConfig env connect c).toOption

/-- A session on input that is all there from the start. -/
def serve (network : Http.Network σ) (state : σ) (session : Session RemoteService)
    (input : List UInt8) : Outcome × σ :=
  let s := (Serving.ofSession session state (RemoteService.call network)).feed input true
  let (written, _, s) := s.take
  let exit := match s.ending with
    | some (.exited code) => code
    | _ => failure.exit
  (⟨exit, Frame.writeAll (written.map (·.2))⟩, s.rehearsal.service)

/-! ## The program -/

def run (env : Environment) (d : Disk) (network : Http.Network σ) (state : σ)
    (input : List UInt8) : Command → Outcome × σ
  | .check o => check env d network state o
  | .lsp config =>
    match session? env d config with
    | some session => serve network state session input
    | none => (failure, state)

/-- What is said in place of running a command. -/
def ofStop : CommandLine.Stop → Outcome
  | .version => ⟨0, s!"{Product.name} {Product.version}\n"⟩
  | .help =>
    ⟨0, s!"Usage: {Product.name} check [--format human|json] [--config FILE] [--offline] [PATH]...\n" ++
      s!"       {Product.name} lsp [--config FILE]\n"⟩
  | .fault => failure

end Program

end SmellWatch
