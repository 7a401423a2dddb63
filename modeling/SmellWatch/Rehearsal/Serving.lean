import SmellWatch.Editor.Diagnostic
import SmellWatch.Editor.Frame
import SmellWatch.Editor.Outbox
import SmellWatch.Editor.Session
import SmellWatch.Rehearsal.Watching
/-! A session with an editor, in a time of its own.

Bytes come in at moments; all frames that are complete are handled at once, and then
everything happens that can happen at that moment; at last the writer writes what there
is to write. Messages are sent in the order of what leads to them: an answer behind the
warnings that led to it, and diagnostics when the watch publishes them. -/

namespace SmellWatch

/-- The status of a watch, as an editor is told of it. -/
def Watch.Status.toEditor (s : Watch.Status) : Json :=
  .ofFields
    [("documents", .nat s.documents),
      ("queued", .nat s.queued),
      ("executing", .bool s.running.isSome),
      ("executingDocument", .ofOption (fun d : DocumentId => .string d.name) s.running),
      ("availableTokens", .ofDouble ⟨s.availableTokens.toBits⟩),
      ("cachedResults", .nat s.cachedResults),
      ("configFingerprint", .string s.config.hex)]

/-- Why a session is over. -/
inductive Serving.Ending
  /-- The editor said so, or sends nothing any more. -/
  | exited (code : Nat)
  /-- The stream could not be read any further. -/
  | failed (error : FrameError)
deriving DecidableEq, Repr

structure Serving (β σ : Type) where
  session : Session β
  /-- How the service answers that is in force. -/
  serve : β → σ → Analysis → ServiceCall × σ
  rehearsal : Rehearsal σ
  /-- The bytes that were not read yet. -/
  input : List UInt8 := []
  ending : Option Serving.Ending := none
  /-- The messages, with the milliseconds at which they were sent. -/
  outbox : Outbox (Nat × Json) := {}

namespace Serving

variable {β σ : Type}

def ofSession (session : Session β) (service : σ)
    (serve : β → σ → Analysis → ServiceCall × σ) : Serving β σ :=
  { session, serve
    rehearsal := { watch := session.watch 0, service, serve := serve session.inForce.service } }

def send (s : Serving β σ) (messages : List (Nat × Json)) : Serving β σ :=
  { s with outbox := s.outbox.sendAll messages }

/-- Findings that were published, as a message. -/
def diagnostics (id : DocumentId) (findings : List Finding) : Json :=
  Reply.notification "textDocument/publishDiagnostics" (Finding.diagnostics id.name findings)

/-- Sends what the watch has published. -/
def flush (s : Serving β σ) : Serving β σ :=
  let messages := s.rehearsal.log.published.map fun (t, id, findings) =>
    (t, diagnostics id findings)
  let rehearsal := { s.rehearsal with log := { s.rehearsal.log with published := [] } }
  { s with rehearsal }.send messages

def now (s : Serving β σ) : Nat := s.rehearsal.agenda.now

def perform (s : Serving β σ) : Deed → Serving β σ
  | .send message => s.send [(s.now, message)]
  | .sendStatus id =>
    let (status, watch) := s.rehearsal.watch.status s.rehearsal.time
    { s with rehearsal := { s.rehearsal with watch } }.send
      [(s.now, Reply.result id status.toEditor)]
  | .tell event => { s with rehearsal := s.rehearsal.happen event }.flush

/-- The session is over; nothing of the watch goes on, and the writer is told to stop. -/
def finish (s : Serving β σ) (ending : Ending) : Serving β σ :=
  let s := s.perform (.tell .shutDown)
  { s with ending := some ending, outbox := s.outbox.stop }

/-- Handles one value. -/
def receive (s : Serving β σ) (value : Json) : Serving β σ :=
  if Session.isExit value then s.finish (.exited s.session.exitCode)
  else
    let (session, deeds) := s.session.handle value
    let rehearsal := { s.rehearsal with serve := s.serve session.inForce.service }
    deeds.foldl perform { s with session, rehearsal }

/-- Handles all frames that are complete. -/
def readFor (closed : Bool) : Nat → Serving β σ → Serving β σ
  | 0, s => s
  | fuel + 1, s =>
    if s.ending.isSome then s
    else
      match Frame.read closed s.input with
      | .found value rest => readFor closed fuel ({ s with input := rest }.receive value)
      | .wait => s
      | .stop => s.finish (.exited s.session.exitCode)
      | .failed e => s.finish (.failed e)

/-- Everything happens that is due up to a time in milliseconds. -/
def runUntil (limit : Nat) (s : Serving β σ) : Serving β σ :=
  let s := { s with rehearsal := s.rehearsal.runUntil limit }.flush
  { s with outbox := s.outbox.drain }

/-- Bytes come in, or the input ends. -/
def feed (s : Serving β σ) (bytes : List UInt8) (closed : Bool) : Serving β σ :=
  let input := s.input ++ bytes
  (readFor closed (input.length + 1) { s with input }).runUntil s.now

/-- The editor stops reading. -/
def mute (s : Serving β σ) : Serving β σ := { s with outbox := s.outbox.mute }

/-- What was written and called since the last look. -/
def take (s : Serving β σ) : List (Nat × Json) × List (Nat × Analysis) × Serving β σ :=
  let (log, rehearsal) := s.rehearsal.takeLog
  (s.outbox.written, log.calls, { s with rehearsal, outbox := { s.outbox with written := [] } })

end Serving

end SmellWatch
