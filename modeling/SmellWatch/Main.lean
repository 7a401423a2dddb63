import SmellWatch.Program
/-! The program: it reads what the command line asks for, lets `Program` decide, and
writes what comes of it.

Files are known by their names alone. Those on the command line are read; if one of
them is a directory, the names of the files in it are expected on standard input, one a
line. There is no connection to any network. -/

namespace SmellWatch.Main

/-! ## Files -/

/-- The bytes of a file, if it can be read. -/
def bytesOf? (path : String) : IO (Option (List UInt8)) := do
  match ← (IO.FS.readBinFile path).toBaseIO with
  | .ok bytes => return some bytes.toList
  | .error _ => return none

/-- The place of a path, if every name in it stands for itself. -/
def placeOf (here : Place) (path : String) : Place :=
  (if Path.isAbsolute path then [] else here) ++ Path.components path

/-- The files that may hold rules about a file, or settings for it. -/
def neighbours (p : Place) : List Place :=
  (Surroundings.above p).flatMap fun q =>
    [q ++ [".ignore"], q ++ [".gitignore"], q ++ [".git", "info", "exclude"], q ++ [".git", "HEAD"]]

def textOf (p : Place) : String := "/" ++ "/".intercalate p

/-- Those of some places at which there are files, with their bytes. -/
def readAll (places : List Place) : IO (List (Place × Option (List UInt8))) := do
  let read ← places.eraseDups.mapM fun p => do return (p, ← bytesOf? (textOf p))
  return read.filter fun x => x.2.isSome

/-- The lines on standard input. -/
partial def linesOf (input : IO.FS.Stream) : IO (List String) := do
  let line ← input.getLine
  if line.isEmpty then return []
  return (Text.firstLine line) :: (← linesOf input)

/-! ## The world around the program -/

/-- The variables that settings, services and users' rules may refer to. -/
def environment (d : Disk) : IO Environment := do
  let named := d.entries.flatMap fun (_, content) =>
    ((content.bind Text.decode?).map Environment.references).getD []
  let names := "XDG_CONFIG_HOME" :: [Provider.claude, .openai, .ollama].filterMap (·.keyVariable?)
  let known ← (names ++ named).eraseDups.mapM fun name => do return (name, ← IO.getEnv name)
  return ⟨known.filterMap fun (name, value) => value.map (name, ·)⟩

/-- The disk as far as a command needs it. -/
def diskFor (input : IO.FS.Stream) (c : Command) : IO Disk := do
  let here := Path.components ((← IO.getEnv "PWD").getD "/")
  let home ← IO.getEnv "HOME"
  let (paths, config) := match c with
    | .check o => (o.paths, o.config)
    | .lsp config => ([], config)
  let read ← paths.mapM fun path => do return (path, ← bytesOf? path)
  let listed ← if read.all (·.2.isSome) then pure [] else linesOf input
  let files := (paths ++ listed).map (placeOf here)
  let own : Disk := { entries := [], workingDirectory := here, home }
  let settings := (Config.localPath :: config.toList ++ (Config.homePath? own).toList ++
    (own.underHome ".gitconfig").toList ++ (own.underHome ".config/git/config").toList).map
      (placeOf here)
  let entries ← readAll (settings ++ files ++ files.flatMap neighbours)
  let directories := (here :: home.toList.map (placeOf here)).map (·, none)
  return { own with entries := directories ++ entries }

/-- The disk with the rules of its user. -/
def withUserRules (env : Environment) (d : Disk) : IO Disk := do
  match UserRules.path? env d with
  | some path =>
    let read ← readAll [placeOf d.workingDirectory path]
    return { d with entries := d.entries ++ read }
  | none => return d

/-- No request reaches anything. -/
def unreachable (_ : Unit) (_ : Http.Request) : Http.Exchange × Unit :=
  (.failed "error sending request: no connection", ())

/-- Begins the log, if there is a place for it. -/
def beginLog (d : Disk) : IO Unit := do
  if let some place := LogFile.place? d then
    let write : IO Unit := do
      IO.FS.createDirAll (textOf place.dropLast)
      IO.FS.withFile (textOf place) .append fun h => h.putStrLn "Logging initialized"
    discard write.toBaseIO

/-! ## Sessions with an editor -/

/-- How often a session looks for what is due, in milliseconds. -/
def pause : UInt32 := 10

/-- Goes on with a session: what has come in is handled, what is due happens, and what
was written is sent. -/
partial def converse (input output : IO.FS.Stream) (started : Nat)
    (coming : Task (Except IO.Error ByteArray)) (s : Serving RemoteService Unit) : IO UInt32 := do
  let come ← IO.hasFinished coming
  let now := (← IO.monoMsNow) - started
  let s := s.runUntil now
  let s := if come then
      match coming.get with
      | .ok bytes => s.feed bytes.toList bytes.isEmpty
      | .error _ => s.feed [] true
    else s
  let (written, _, s) := s.take
  output.putStr (Frame.writeAll (written.map (·.2)))
  output.flush
  match s.ending with
  | some (.exited code) => return code.toUInt32
  | some (.failed e) =>
    (← IO.getStderr).putStrLn s!"Error: {e.message}"
    return Program.failure.exit.toUInt32
  | none =>
    let coming ← if come then IO.asTask (input.read 65536) else pure coming
    IO.sleep pause
    converse input output started coming s

/-! ## Runs -/

def finish (o : Program.Outcome) : IO UInt32 := do
  let output ← IO.getStdout
  output.putStr o.output
  output.flush
  return o.exit.toUInt32

def run (c : Command) : IO UInt32 := do
  let input ← IO.getStdin
  let read ← diskFor input c
  let env ← environment read
  let d ← withUserRules env read
  beginLog d
  match c with
  | .check o =>
    if let (.error e, _) := Check.report env d unreachable () o then
      (← IO.getStderr).putStrLn s!"Error: {e.headline}"
    finish (Program.check env d unreachable () o).1
  | .lsp config =>
    match Program.session? env d config with
    | none => finish Program.failure
    | some session =>
      converse input (← IO.getStdout) (← IO.monoMsNow) (← IO.asTask (input.read 65536))
        (Serving.ofSession session () (RemoteService.call unreachable))

end SmellWatch.Main

def main (args : List String) : IO UInt32 :=
  match SmellWatch.CommandLine.parse args with
  | .ok c => SmellWatch.Main.run c
  | .error stop => SmellWatch.Main.finish (SmellWatch.Program.ofStop stop)
