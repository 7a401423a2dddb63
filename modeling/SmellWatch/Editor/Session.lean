import SmellWatch.Config.Text
import SmellWatch.Editor.Message
import SmellWatch.Url
import SmellWatch.Watch.Step
/-! A session with an editor, as a machine.

A session starts with the first request, runs until the editor asks it to shut down,
and then only waits for its end. While it runs, it tells the watch of the documents
that the editor has open, as far as the include filter lets them through. Settings that
the editor sends are laid over those of the file, never over one another; either all of
what follows from them is adopted, or nothing.

What a message leads to is a list of `Deed`s: messages to the editor, and events for the
watch, in the order in which they happen. -/

namespace SmellWatch

/-- How far a session has come. -/
inductive Phase
  | starting
  | running
  | stopping
deriving DecidableEq, Repr

/-- Why settings are not adopted. -/
inductive SettingsError
  /-- They do not fit those they are laid over. -/
  | overlay
  | glob (e : BadGlob)
  | service (e : RemoteError)
deriving DecidableEq, Repr

namespace SettingsError

/-- What stands for a failure as a whole. -/
def headline : SettingsError → String
  | overlay => "invalid settings overlay: unexpected value"
  | glob e => e.message
  | service _ => "configuring analysis backend"

/-- The failure with all its causes. -/
def message : SettingsError → String
  | service e => s!"configuring analysis backend: {e.message}"
  | e => e.headline

end SettingsError

/-- What a session does. -/
inductive Deed
  | send (message : Json)
  /-- The request with this id is answered with the status of the watch. -/
  | sendStatus (id : Json)
  | tell (event : Watch.Event)

/-- The settings that are in force. `β` is what is made of them to reach the remote
service. -/
structure InForce (β : Type) where
  config : Config
  filter : IncludeFilter
  service : β

structure Session (β : Type) where
  environment : Environment
  /-- The settings of the file. -/
  fileConfig : Config
  connect : Config → Except RemoteError β
  inForce : InForce β
  phase : Phase := .starting

namespace Session

variable {β : Type}

/-! ## Settings -/

/-- What follows from settings. -/
def adopt (connect : Config → Except RemoteError β) (c : Config) :
    Except SettingsError (InForce β) := do
  let filter ← c.includeFilter.mapError .glob
  let service ← (connect c).mapError .service
  return ⟨c, filter, service⟩

/-- A session under the settings of the file. -/
def ofConfig (environment : Environment) (connect : Config → Except RemoteError β)
    (fileConfig : Config) : Except SettingsError (Session β) :=
  (adopt connect fileConfig).map fun inForce => { environment, fileConfig, connect, inForce }

/-- The watch under the settings of the file. -/
def watch (s : Session β) (now : Duration) : Watch :=
  .ofOptions (.ofConfig s.fileConfig) s.fileConfig.fingerprint now

/-- What follows from settings laid over those of the file. -/
def overlaid (s : Session β) (overlay : Json) : Except SettingsError (InForce β) :=
  match s.fileConfig.mergedWith s.environment overlay with
  | some c => adopt s.connect c
  | none => .error .overlay

/-- The session with settings laid over those of the file, or a warning. -/
def applySettings (s : Session β) (overlay : Json) : Session β × List Deed :=
  match s.overlaid overlay with
  | .ok inForce =>
    ({ s with inForce },
      [.tell (.reconfigured (.ofConfig inForce.config) inForce.config.fingerprint)])
  | .error e =>
    (s, [.send (Reply.warning (s!"{Product.name}: ignoring invalid settings: " ++ e.message))])

/-! ## Requests -/

/-- The answer to the first request. -/
def start (s : Session β) (id params : Json) : Session β × List Deed :=
  match Params.initialize? params with
  | none => (s, [.send (Reply.refusal id .invalidParams "invalid parameters")])
  | some options =>
    let (s, deeds) := match options.bind Params.overlay? with
      | some overlay => s.applySettings overlay
      | none => (s, [])
    ({ s with phase := .running }, deeds ++ [.send (Reply.result id Reply.capabilities)])

def statusMethod : String := Product.name ++ "/status"

def handleRequest (s : Session β) (id : Json) (method : String) (params : Json) :
    Session β × List Deed :=
  let refuse := fun r text => (s, [Deed.send (Reply.refusal id r text)])
  match s.phase with
  | .starting =>
    if method = "initialize" then s.start id params
    else refuse .notInitialized "server not initialized"
  | .stopping => refuse .invalidRequest "server is shutting down"
  | .running =>
    if method = "initialize" then refuse .invalidRequest "already initialized"
    else if method = "shutdown" then
      ({ s with phase := .stopping }, [.tell .shutDown, .send (Reply.result id .null)])
    else if method = statusMethod then (s, [.sendStatus id])
    else refuse .unknownMethod ("method not found: " ++ method)

/-! ## Documents -/

/-- Whether a document is analyzed: the filter decides about files only. -/
def tracks (s : Session β) (uri : String) : Bool :=
  match (Url.parse? uri).bind Url.filePath? with
  | some path => s.inForce.filter.allowsBytes path
  | none => true

/-- The deeds about a document that is analyzed. -/
def about (s : Session β) (uri : String) (deeds : DocumentId → List Deed) :
    Session β × List Deed :=
  (s, if s.tracks uri then deeds ⟨uri⟩ else [])

/-- What a notification leads to while the session runs. -/
def handleRunning (s : Session β) (method : String) (params : Json) : Session β × List Deed :=
  match method with
  | "textDocument/didOpen" =>
    match Params.opened? params with
    | some (uri, text) => s.about uri fun id => [.tell (.opened id text)]
    | none => (s, [])
  | "textDocument/didChange" =>
    match Params.changed? params with
    | some (uri, texts) =>
      s.about uri fun id => match texts.getLast? with
        | some text => [.tell (.changed id text)]
        | none => []
    | none => (s, [])
  | "textDocument/didSave" =>
    match Params.saved? params with
    | some (uri, text) =>
      s.about uri fun id =>
        (text.toList.map fun text => .tell (.changed id text)) ++ [.tell (.saved id)]
    | none => (s, [])
  | "textDocument/didClose" =>
    match Params.closed? params with
    | some uri => (s, [.tell (.closed ⟨uri⟩)])
    | none => (s, [])
  | "workspace/didChangeConfiguration" =>
    match (Params.settings? params).bind Params.overlay? with
    | some overlay => s.applySettings overlay
    | none => (s, [])
  | _ => (s, [])

/-! ## Messages -/

/-- Notifications count only while the session runs. -/
def handleNotification (s : Session β) (method : String) (params : Json) :
    Session β × List Deed :=
  if s.phase = .running then s.handleRunning method params else (s, [])

/-- What a value from the editor leads to. -/
def handle (s : Session β) (m : Json) : Session β × List Deed :=
  match Message.ofJson? m with
  | some (.request id method params) => s.handleRequest id method params
  | some (.notification method params) => s.handleNotification method params
  | some .response => (s, [])
  | none =>
    (s, (m.get? "id").toList.map fun id =>
      .send (Reply.refusal id .invalidRequest "not a JSON-RPC request"))

/-- Whether a value ends the session. -/
def isExit (m : Json) : Bool :=
  match Message.ofJson? m with
  | some (.notification method _) => method = "exit"
  | _ => false

/-- How the session ends: well, if it was asked to shut down before. -/
def exitCode (s : Session β) : Nat := if s.phase = .stopping then 0 else 1

end Session

end SmellWatch
