import SmellWatch.Agenda
import SmellWatch.RequestQueue
/-! A queue of scripted works that runs in a time of its own. -/

namespace SmellWatch

/-- A work that takes its time and ends as it is told. -/
structure ScriptedWork where
  name : String
  /-- It does nothing until it is canceled. -/
  untilCanceled : Bool := false
  /-- How long it takes, in milliseconds. -/
  millis : Nat := 0
  stop : WorkEnd String String

namespace QueueRehearsal

inductive Task
  | worker
  | work (ticket : Nat)
  /-- One who waits for a ticket hears of its end. -/
  | watcher (ticket : Nat)
deriving DecidableEq, Repr

/-- How far the running work is. -/
inductive Phase
  | fresh
  | waiting
  | sleeping (until_ : Duration)

inductive Event
  | started (name : String)
  | ended (name : String) (canceled : Bool)

end QueueRehearsal

open QueueRehearsal in
structure QueueRehearsal where
  queue : RequestQueue ScriptedWork String String := {}
  agenda : Agenda Task := {}
  running : Option (Nat × ScriptedWork × Phase) := none
  /-- What came of tickets, and was not heard of yet. -/
  unheard : List (RequestQueue.Settled String String) := []
  events : List (Nat × Event) := []
  settled : List (Nat × RequestQueue.Settled String String) := []

namespace QueueRehearsal

abbrev Orders := List (Agenda.Order Task)

def note (now : Duration) (e : Event) (r : QueueRehearsal) : QueueRehearsal :=
  { r with events := r.events ++ [(now / Duration.nanosPerMilli, e)] }

def settle (settled : List (RequestQueue.Settled String String)) (r : QueueRehearsal) :
    QueueRehearsal × Orders :=
  ({ r with unheard := r.unheard ++ settled }, settled.map fun s => .wake (.watcher s.ticket))

def takeTurn (now : Duration) (r : QueueRehearsal) : QueueRehearsal × Orders :=
  let (queue, settled, started) := r.queue.turn now
  let (r, orders) := { r with queue }.settle settled
  match started with
  | none => (r, orders)
  | some e =>
    ({ r with running := some (e.ticket, e.work, .fresh) }, orders ++ [.wake (.work e.ticket)])

def endWork (now : Duration) (w : ScriptedWork) (r : QueueRehearsal) : QueueRehearsal × Orders :=
  let r := r.note now (.ended w.name r.queue.isCanceled)
  ({ r with queue := r.queue.finish w.stop, running := none }, [.wake .worker])

/-- The work sleeps for as long as it takes, and not at all if it takes no time. -/
def sleep (now : Duration) (ticket : Nat) (w : ScriptedWork) (r : QueueRehearsal) :
    QueueRehearsal × Orders :=
  if w.millis = 0 then r.endWork now w
  else
    let until_ := now + Duration.ofMillis w.millis
    ({ r with running := some (ticket, w, .sleeping until_) }, [.alarm until_ (.work ticket)])

def goOn (now : Duration) (ticket : Nat) (r : QueueRehearsal) : QueueRehearsal × Orders :=
  match r.running with
  | none => (r, [])
  | some (t, w, phase) =>
    if t ≠ ticket then (r, [])
    else
      match phase with
      | .fresh =>
        let r := r.note now (.started w.name)
        if w.untilCanceled ∧ !r.queue.isCanceled then
          ({ r with running := some (t, w, .waiting) }, [])
        else r.sleep now t w
      | .waiting => if r.queue.isCanceled then r.sleep now t w else (r, [])
      | .sleeping until_ => if until_ ≤ now then r.endWork now w else (r, [])

def hear (now : Duration) (ticket : Nat) (r : QueueRehearsal) : QueueRehearsal :=
  match r.unheard.find? (·.ticket = ticket) with
  | none => r
  | some s =>
    { r with
      unheard := r.unheard.filter (·.ticket ≠ ticket)
      settled := r.settled ++ [(now / Duration.nanosPerMilli, s)] }

def runTask (now : Duration) (t : Task) (r : QueueRehearsal) : QueueRehearsal × Orders :=
  match t with
  | .worker => r.takeTurn now
  | .work ticket => r.goOn now ticket
  | .watcher ticket => (r.hear now ticket, [])

def runUntil (limit : Nat) (r : QueueRehearsal) : QueueRehearsal :=
  let (agenda, s) := r.agenda.run runTask limit r
  { s with agenda }

/-- Adds a work; gives its ticket. -/
def enqueue (key : DocumentId) (w : ScriptedWork) (abandoned : Bool) (r : QueueRehearsal) :
    Nat × QueueRehearsal :=
  let q := r.queue.enqueue r.agenda.time key w
  let queue := if abandoned then q.queue.abandon q.ticket else q.queue
  let (s, orders) := { r with queue }.settle q.settled
  let orders := orders ++ if q.startsWorker then [.wake .worker] else []
  (q.ticket, { s with agenda := r.agenda.obeyAll orders })

/-- Cancels what is wanted; gives how many works were affected. -/
def cancel (wanted : DocumentId → Bool) (r : QueueRehearsal) : Nat × QueueRehearsal :=
  let c := r.queue.cancelWhere wanted
  let (s, orders) := { r with queue := c.queue }.settle c.settled
  let orders := orders ++ match r.running with
    | some (t, _) => [.wake (.work t)]
    | none => []
  (c.count, { s with agenda := r.agenda.obeyAll orders })

end QueueRehearsal

end SmellWatch
