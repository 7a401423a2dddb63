import SmellWatch.Watch.Step
/-! A watch that runs in a time of its own, against any service.

A service tells how each call goes, by what it was called for before; a script is one.
It answers after a while or at once. While a call takes its time, a cancellation ends
it, unless it is deaf to that. Nothing here waits: an agenda tells what happens next,
and when. -/

namespace SmellWatch

/-- How a call on a service goes. -/
structure ServiceCall where
  reply : Watch.Reply
  /-- How long it takes, in milliseconds. -/
  latency : Nat := 0
  /-- It does not notice that it was canceled. -/
  deaf : Bool := false

/-- What a scripted service answers. -/
structure Script where
  /-- The calls for a document, in order. -/
  byDocument : List (DocumentId × List ServiceCall) := []
  /-- The calls for contents in which a text occurs. -/
  byContent : List (String × ServiceCall) := []
  otherwise : ServiceCall := { reply := .returned (.ok []) }

namespace Script

/-- The calls for a document that are left, in the place of those it had. -/
def leave (s : Script) (id : DocumentId) (calls : List ServiceCall) : Script :=
  { s with byDocument := s.byDocument.map fun p => if p.1 = id then (id, calls) else p }

/-- The next call for a document with this content. -/
def next (s : Script) (id : DocumentId) (content : String) : ServiceCall × Script :=
  match (s.byDocument.find? (·.1 = id)).map (·.2) with
  | some (c :: r) => (c, s.leave id r)
  | _ =>
    match s.byContent.find? fun p => Text.contains p.1 content.toList with
    | some (_, c) => (c, s)
    | none => (s.otherwise, s)

/-- The next call for an analysis. -/
def serve (s : Script) (a : Analysis) : ServiceCall × Script := s.next a.document a.content

end Script

/-- What happened while a watch ran, with the milliseconds at which it happened. -/
structure Rehearsal.Log where
  calls : List (Nat × Analysis) := []
  published : List (Nat × DocumentId × List Finding) := []

/-- A watch, its service, and what has happened so far. -/
structure Rehearsal (σ : Type) where
  watch : Watch
  /-- What the service knows. -/
  service : σ
  serve : σ → Analysis → ServiceCall × σ
  agenda : Agenda Watch.Task := {}
  /-- The ticket of the call in progress, how it goes, and when it ends. -/
  call : Option (Nat × ServiceCall × Duration) := none
  log : Rehearsal.Log := {}

namespace Rehearsal

open Watch

variable {σ : Type}

/-- Notes the effects; a call that begins is put to the service. Gives what has to
run, and the ticket of a call that is answered at once. -/
def absorb (now : Duration) :
    List Effect → Rehearsal σ →
      Rehearsal σ × List (Agenda.Order Task) × Option (Nat × Reply)
  | [], r => (r, [], none)
  | e :: rest, r =>
    let ms := now / Duration.nanosPerMilli
    match e with
    | .published id findings =>
      absorb now rest
        { r with log := { r.log with published := r.log.published ++ [(ms, id, findings)] } }
    | .begun _ _ => absorb now rest r
    | .ordered o =>
      let (r, orders, reply) := absorb now rest r
      (r, o :: orders, reply)
    | .called ticket a =>
      let (c, service) := r.serve r.service a
      let r := { r with service, log := { r.log with calls := r.log.calls ++ [(ms, a)] } }
      if c.latency = 0 then
        let (r, orders, _) := absorb now rest r
        (r, orders, some (ticket, c.reply))
      else
        let ends := now + Duration.ofMillis c.latency
        let (r, orders, reply) := absorb now rest { r with call := some (ticket, c, ends) }
        (r, .alarm ends (.work ticket) :: orders, reply)

/-- Lets the watch make a step and follows what comes of it at once. A call that is
answered at once leads to no other call in the same moment, as the watch rests before
it calls again. -/
def stepWatch (now : Duration) (f : Watch → Watch × List Effect) (r : Rehearsal σ) :
    Rehearsal σ × List (Agenda.Order Task) :=
  let (watch, effects) := f r.watch
  match absorb now effects { r with watch } with
  | (r, orders, none) => (r, orders)
  | (r, orders, some (ticket, reply)) =>
    let (watch, effects) := r.watch.answered now ticket reply
    let (r, more, _) := absorb now effects { r with watch }
    (r, orders ++ more)

/-- Runs a task. The running analysis may be in the middle of a call. -/
def runTask (now : Duration) (t : Task) (r : Rehearsal σ) :
    Rehearsal σ × List (Agenda.Order Task) :=
  match t, r.call with
  | .work ticket, some (caller, c, ends) =>
    if ticket ≠ caller then (r, [])
    else if r.watch.queue.isCanceled ∧ !c.deaf then
      stepWatch now (·.answered now ticket (.returned (.error .canceled)))
        { r with call := none }
    else if ends ≤ now then stepWatch now (·.answered now ticket c.reply) { r with call := none }
    else (r, [])
  | _, _ => stepWatch now (·.run now t) r

def time (r : Rehearsal σ) : Duration := r.agenda.time

/-- Something happens in the editor; what follows from it has to wait. -/
def happen (e : Event) (r : Rehearsal σ) : Rehearsal σ :=
  let (s, orders) := stepWatch r.time (·.step r.time e) r
  { s with agenda := r.agenda.obeyAll orders }

/-- Lets everything happen that is due up to a time in milliseconds. -/
def runUntil (limit : Nat) (r : Rehearsal σ) : Rehearsal σ :=
  let (agenda, s) := r.agenda.run runTask limit r
  { s with agenda }

/-- What has happened since the last look. -/
def takeLog (r : Rehearsal σ) : Log × Rehearsal σ := (r.log, { r with log := {} })

end Rehearsal

end SmellWatch
