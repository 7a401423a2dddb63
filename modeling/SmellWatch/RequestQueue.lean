import SmellWatch.Document
import SmellWatch.Duration
import SmellWatch.Text.Quoted
/-! A queue that works on one request at a time.

Requests run in the order in which they came. A document has at most one request that
waits: a new one takes the place of the older, which is settled as superseded. A
request that has waited longer than `maxAge` is settled when the next one comes, or
when its turn comes, and does not run. A request that runs is only ever stopped by
cancellation, and then it counts as canceled, however it ends.

The queue belongs to a worker while `working`; the worker takes a turn (`turn`) when
it starts and whenever the work of the running request has ended. -/

namespace SmellWatch

/-- Why a request has no result. -/
inductive QueueError (ε : Type)
  /-- A newer request for the same document came. -/
  | superseded
  /-- It waited too long. -/
  | timedOut
  | canceled
  /-- Its work broke down. -/
  | panicked
  /-- Its work failed. -/
  | failed (error : ε)
deriving DecidableEq, Repr

namespace QueueError

/-- Whether nobody needs to hear of it. -/
def isSilent {ε : Type} : QueueError ε → Bool
  | superseded | timedOut | canceled => true
  | panicked | failed _ => false

def message : QueueError String → String
  | superseded => "superseded by a newer request for the same document"
  | timedOut => "timed out waiting in queue"
  | canceled => "canceled"
  | panicked => "queued request panicked"
  | failed e => e

end QueueError

/-- How the work of a request ended. -/
inductive WorkEnd (β ε : Type)
  | returned (result : Except ε β)
  | panicked

namespace RequestQueue

/-- A request that waits. -/
structure Waiting (α : Type) where
  ticket : Nat
  key : DocumentId
  work : α
  since : Duration
  /-- Nobody waits for the result. -/
  abandoned : Bool := false
deriving DecidableEq, Repr

/-- The request that runs. -/
structure Running (β ε : Type) where
  ticket : Nat
  key : DocumentId
  canceled : Bool := false
  abandoned : Bool := false
  /-- How its work ended, once it has. -/
  ended : Option (WorkEnd β ε) := none

/-- What came of a request. -/
structure Settled (β ε : Type) where
  ticket : Nat
  result : Except (QueueError ε) β

end RequestQueue

open RequestQueue in
structure RequestQueue (α β ε : Type) where
  /-- From the oldest to the newest. -/
  waiting : List (Waiting α) := []
  running : Option (Running β ε) := none
  working : Bool := false
  maxAge : Duration := Duration.ofSeconds 30
  /-- The ticket of the next request. -/
  nextTicket : Nat := 0

namespace RequestQueue

variable {α β ε : Type}

def isTooOld (q : RequestQueue α β ε) (now : Duration) (w : Waiting α) : Bool :=
  q.maxAge < now - w.since

/-- Settles a request that waits, for those who wait for it. -/
def reject (e : QueueError ε) (w : Waiting α) : Option (Settled β ε) :=
  if w.abandoned then none else some ⟨w.ticket, .error e⟩

/-! ## Coming -/

/-- Why a request that waits has to go when one for `key` comes. -/
def eviction? (q : RequestQueue α β ε) (now : Duration) (key : DocumentId) (w : Waiting α) :
    Option (QueueError ε) :=
  if w.key = key then some .superseded
  else if q.isTooOld now w then some .timedOut
  else none

structure Enqueued (α β ε : Type) where
  queue : RequestQueue α β ε
  ticket : Nat
  settled : List (Settled β ε)
  /-- A worker has to start. -/
  startsWorker : Bool

/-- Adds a request at the end. -/
def enqueue (now : Duration) (key : DocumentId) (work : α) (q : RequestQueue α β ε) :
    Enqueued α β ε :=
  { queue := { q with
      waiting := q.waiting.filter (fun w => (q.eviction? now key w).isNone) ++
        [{ ticket := q.nextTicket, key, work, since := now }]
      working := true
      nextTicket := q.nextTicket + 1 }
    ticket := q.nextTicket
    settled := q.waiting.filterMap fun w => (q.eviction? now key w).bind (reject · w)
    startsWorker := !q.working }

/-- Nobody waits for a ticket any more. -/
def abandon (ticket : Nat) (q : RequestQueue α β ε) : RequestQueue α β ε :=
  { q with
    waiting := q.waiting.map fun w => if w.ticket = ticket then { w with abandoned := true } else w
    running := q.running.map fun r =>
      if r.ticket = ticket then { r with abandoned := true } else r }

def setMaxAge (age : Duration) (q : RequestQueue α β ε) : RequestQueue α β ε :=
  { q with maxAge := age }

/-! ## Running -/

/-- The work of the running request has ended. -/
def finish (e : WorkEnd β ε) (q : RequestQueue α β ε) : RequestQueue α β ε :=
  { q with running := q.running.map fun r => { r with ended := some e } }

/-- What came of the running request. -/
def Running.result (e : WorkEnd β ε) (r : Running β ε) : Except (QueueError ε) β :=
  if r.canceled then .error .canceled
  else
    match e with
    | .returned (.ok x) => .ok x
    | .returned (.error x) => .error (.failed x)
    | .panicked => .error .panicked

/-- Settles the running request, once its work has ended. -/
def reap (q : RequestQueue α β ε) : RequestQueue α β ε × List (Settled β ε) :=
  match q.running with
  | none => (q, [])
  | some r =>
    match r.ended with
    | none => (q, [])
    | some e =>
      ({ q with running := none }, if r.abandoned then [] else [⟨r.ticket, r.result e⟩])

/-- The first request that may run, with those that come after it; the ones before it
are settled. -/
def firstRunnable (q : RequestQueue α β ε) (now : Duration) :
    List (Waiting α) → List (Settled β ε) × Option (Waiting α × List (Waiting α))
  | [] => ([], none)
  | w :: r =>
    if w.abandoned then firstRunnable q now r
    else if q.isTooOld now w then
      let (settled, found) := firstRunnable q now r
      (⟨w.ticket, .error .timedOut⟩ :: settled, found)
    else ([], some (w, r))

/-- Starts the next request, or lets the worker go. -/
def startNext (now : Duration) (q : RequestQueue α β ε) :
    RequestQueue α β ε × List (Settled β ε) × Option (Waiting α) :=
  match q.firstRunnable now q.waiting with
  | (settled, none) => ({ q with waiting := [], working := false }, settled, none)
  | (settled, some (w, rest)) =>
    ({ q with waiting := rest, running := some { ticket := w.ticket, key := w.key } },
      settled, some w)

/-- One turn of the worker: it settles what has ended and starts what is next. While a
request runs there is nothing to do. -/
def turn (now : Duration) (q : RequestQueue α β ε) :
    RequestQueue α β ε × List (Settled β ε) × Option (Waiting α) :=
  let (q, settled) := q.reap
  match q.running with
  | some _ => (q, settled, none)
  | none =>
    let (q, more, started) := q.startNext now
    (q, settled ++ more, started)

/-! ## Canceling -/

structure Canceled (α β ε : Type) where
  queue : RequestQueue α β ε
  settled : List (Settled β ε)
  /-- How many requests were affected. -/
  count : Nat

/-- Cancels what is wanted, waiting or running. -/
def cancelWhere (wanted : DocumentId → Bool) (q : RequestQueue α β ε) : Canceled α β ε :=
  let gone := q.waiting.filter fun w => wanted w.key
  let hit := q.running.any fun r => wanted r.key
  { queue := { q with
      waiting := q.waiting.filter fun w => !wanted w.key
      running := q.running.map fun r => if wanted r.key then { r with canceled := true } else r }
    settled := gone.filterMap (reject .canceled)
    count := gone.length + if hit then 1 else 0 }

def cancelKey (key : DocumentId) : RequestQueue α β ε → Canceled α β ε := cancelWhere (· = key)

def cancelAll : RequestQueue α β ε → Canceled α β ε := cancelWhere fun _ => true

/-! ## Looking -/

def size (q : RequestQueue α β ε) : Nat := q.waiting.length

def runningKey? (q : RequestQueue α β ε) : Option DocumentId := q.running.map (·.key)

/-- Whether the running request was canceled. -/
def isCanceled (q : RequestQueue α β ε) : Bool := q.running.any (·.canceled)

/-- The queue for a reader. -/
def shown (q : RequestQueue α β ε) : String :=
  let running := match q.runningKey? with
    | none => "None"
    | some d => "Some(DocumentId(" ++ Text.quoted d.name ++ "))"
  s!"RequestQueue \x7b pending: {q.size}, executing: " ++ running ++ ", max_age: " ++
    q.maxAge.text ++ " \x7d"

end RequestQueue

end SmellWatch
