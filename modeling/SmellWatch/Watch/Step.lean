import SmellWatch.Heuristics.Scan
import SmellWatch.Watch.State
/-! What the watch does, one event at a time.

An edit goes this way: the store takes the text in; a cached result answers at once;
otherwise the document has to be left alone for a while, and then an analysis is begun
and queued. The running analysis pursues an answer of the remote service. What comes of
it is published, if it is about the text as it is by then. When the service fails, the
heuristics stand in for it, with a notice in front; when nobody needs to hear of the
end, it only ends.

A key that the service refused is not tried again under the same settings.

There is one thread of control, which gives way only where something is waited for: at the
timer of a debouncer, for a token, for an answer of the remote service, in a rest before
the next call, and for a turn in the queue. What goes on between two such points is one
event here and is dealt with as a whole; nothing else happens meanwhile. -/

namespace SmellWatch

namespace Watch

/-! ## Findings of its own -/

def noticeId : String := "whiff/remote"

/-- A finding that tells why the heuristics stand in. -/
def notice (title : String) (severity : Severity) (e : RemoteError) : Finding :=
  Finding.basic noticeId title severity (e.message ++ ". Showing local heuristic findings instead.")
    |>.withCategory "notice"
    |>.withConfidence 1
    |>.withRange ⟨⟨0, 0⟩, ⟨0, 0⟩⟩

/-- The notice about a failure; a refused key is told of once for the same settings. -/
def noticeFor (e : RemoteError) (w : Watch) : Option Finding × Watch :=
  match e with
  | .rateLimited _ | .canceled => (none, w)
  | .auth _ =>
    if w.refused = some w.store.config then (none, w)
    else
      (some (notice "Remote analysis authentication failed" .warning e),
        { w with refused := some w.store.config })
  | .server _ _ | .timeout | .malformed _ | .other _ =>
    (some (notice "Remote analysis unavailable" .info e), w)

/-! ## Beginning and ending analyses -/

/-- Publishes what the heuristics find, behind the notice if there is one. -/
def fallBack (now : Duration) (a : Analysis) (lead : Option Finding) (w : Watch) :
    Watch × List Effect :=
  let findings := lead.toList ++ w.options.filter (Heuristics.scan a.document a.content)
  match w.store.recordResult now a.document a.fingerprint findings with
  | (true, store) => ({ w with store }, [.published a.document findings])
  | (false, store) => ({ w with store := (store.finishAnalysis a.document a.seq).2 }, [])

/-- Publishes the cached result for the text as it is; tells whether there is one. -/
def deliverCached (now : Duration) (id : DocumentId) (fp : Fingerprint) (w : Watch) :
    Bool × Watch × List Effect :=
  match w.store.getCached? now id with
  | none => (false, w, [])
  | some findings =>
    match w.store.recordResult now id fp findings with
    | (true, store) => (true, { w with store }, [.published id findings])
    | (false, store) => (true, { w with store }, [])

/-- Begins an analysis of the text as it is, unless one is under way. -/
def trigger (now : Duration) (id : DocumentId) (w : Watch) : Watch × List Effect :=
  match w.store.beginAnalysis id with
  | (none, _) => (w, [])
  | (some e, store) =>
    let w := { w with store }
    let a : Analysis :=
      { document := id
        fingerprint := e.fingerprint
        content := e.content
        seq := e.seq
        rules := w.options.rules
        policy := w.options.retry
        bucket := w.bucket
        service := w.service }
    if w.refused = some w.store.config then
      let (w, effects) := w.fallBack now a none
      (w, .begun a false :: effects)
    else
      let q := w.queue.enqueue now id a
      let (w, effects) := { w with queue := q.queue }.settle q.settled
      ({ w with owed := w.owed ++ [{ ticket := q.ticket, analysis := a }] },
        .begun a true :: effects ++ (if q.startsWorker then [.wake .worker] else []) ++
          [.wake (.completion q.ticket)])

/-- A document was left alone since the text of that fingerprint came. -/
def fire (now : Duration) (id : DocumentId) (fp : Fingerprint) (w : Watch) :
    Watch × List Effect :=
  if (w.store.get? id).any (·.fingerprint = fp) then w.trigger now id else (w, [])

/-- How the end of a queued analysis is to be taken. -/
inductive Verdict
  | found (findings : List Finding)
  | failed (error : RemoteError)
  /-- Nobody needs to hear of it. -/
  | dropped

def verdict : Outcome → Verdict
  | .ok findings => .found findings
  | .error (.failed e) => if e = .canceled then .dropped else .failed e
  | .error .panicked => .failed (.other "analysis task panicked")
  | .error .superseded | .error .timedOut | .error .canceled => .dropped

/-- Takes in the end of an analysis. -/
def conclude (now : Duration) (a : Analysis) (o : Outcome) (w : Watch) : Watch × List Effect :=
  match verdict o with
  | .found findings =>
    let findings := w.options.filter findings
    match w.store.setResult now a.document a.fingerprint findings with
    | (true, store) => ({ w with store }, [.published a.document findings])
    | (false, store) => ({ w with store := (store.finishAnalysis a.document a.seq).2 }, [])
  | .failed e =>
    let (lead, w) := w.noticeFor e
    w.fallBack now a lead
  | .dropped => ({ w with store := (w.store.finishAnalysis a.document a.seq).2 }, [])

/-! ## What happens in the editor -/

/-- Has the document be left alone for a while. -/
def schedule (now : Duration) (id : DocumentId) (fp : Fingerprint) (w : Watch) :
    Watch × List Effect :=
  let d := (w.debouncer? id).getD { delay := w.options.debounce }
  let d := d.call now fp w.timers
  let timer : Debouncer.Timer := ⟨w.timers, d.generation⟩
  ({ w with timers := w.timers + 1 }.setDebouncer id d,
    [.wake (.debounce id timer (now + d.delay))])

/-- The text of a document is this one. -/
def update (now : Duration) (id : DocumentId) (content : String) (w : Watch) :
    Watch × List Effect :=
  match w.store.upsert id content with
  | (false, _) => (w, [])
  | (true, store) =>
    let fp := Fingerprint.ofText content
    match { w with store }.deliverCached now id fp with
    | (true, w, effects) =>
      match w.debouncer? id with
      | some d => (w.setDebouncer id d.disarm, effects)
      | none => (w, effects)
    | (false, w, _) => w.schedule now id fp

/-- A document was saved: what waits to be analyzed is analyzed now. -/
def save (now : Duration) (id : DocumentId) (w : Watch) : Watch × List Effect :=
  let flushed := (w.debouncer? id).map (·.flush)
  let w := match flushed with
    | some (_, d) => w.setDebouncer id d
    | none => w
  match flushed with
  | some (some fp, _) => w.fire now id fp
  | _ =>
    match w.store.get? id with
    | none => (w, [])
    | some e =>
      if e.hasCurrentResult || e.inFlight then (w, [])
      else
        match w.deliverCached now id e.fingerprint with
        | (true, w, effects) => (w, effects)
        | (false, w, _) => w.trigger now id

/-- Cancels queued analyses; the running one is told. -/
def cancelQueued (wanted : DocumentId → Bool) (w : Watch) : Watch × List Effect :=
  let c := w.queue.cancelWhere wanted
  let (w, effects) := { w with queue := c.queue }.settle c.settled
  (w, effects ++ match c.queue.running with
    | some r => if wanted r.key then [.wake (.work r.ticket)] else []
    | none => [])

/-- A document was closed: nothing about it goes on, and it has no findings. -/
def close (now : Duration) (id : DocumentId) (w : Watch) : Watch × List Effect :=
  let _ := now
  let w := w.dropDebouncers (· = id)
  let (w, effects) := w.cancelQueued (· = id)
  ({ w with store := (w.store.remove id).2 }, effects ++ [.published id []])

/-- Everything that waits or runs is canceled. -/
def shutDown (w : Watch) : Watch × List Effect :=
  let quieted : Watch := { w with debouncers := w.debouncers.map fun p => (p.1, p.2.disarm) }
  quieted.cancelQueued fun _ => true

/-! ## Other settings -/

def setConfig (config : Fingerprint) (w : Watch) : Bool × Watch :=
  let (changed, store) := w.store.setConfig config
  (changed, { w with store })

/-- Schedules documents that are open, one after the other. -/
def scheduleAll (now : Duration) : List DocumentId → Watch → Watch × List Effect
  | [], w => (w, [])
  | id :: r, w =>
    match w.store.get? id with
    | none => scheduleAll now r w
    | some e =>
      let (w, effects) := w.schedule now id e.fingerprint
      let (w, more) := scheduleAll now r w
      (w, effects ++ more)

/-- Adopts other settings and another remote service. Settings that change what a result
means wipe the cache, and every document is scheduled anew; another debounce delay holds
for what is pending too. -/
def reconfigure (now : Duration) (options : WatchOptions) (config : Fingerprint) (w : Watch) :
    Watch × List Effect :=
  let old := w.options
  let buckets :=
    if old.requestsPerMinute = options.requestsPerMinute then w.buckets
    else w.buckets ++ [.full options.requestsPerMinute now]
  let w := { w with
    options
    buckets
    service := w.service + 1
    queue := w.queue.setMaxAge options.maxQueueAge
    refused := none }
  let (pending, w) :=
    if old.debounce = options.debounce then ([], w)
    else
      ((w.debouncers.filter (·.2.isPending)).map (·.1), w.dropDebouncers fun _ => true)
  match w.setConfig config with
  | (true, w) => w.scheduleAll now (w.store.documents.map (·.id))
  | (false, w) => w.scheduleAll now pending

/-! ## What happens by and by -/

/-- A timer of the debouncer of a document rings. -/
def quiet (now : Duration) (id : DocumentId) (timer : Debouncer.Timer) (w : Watch) :
    Watch × List Effect :=
  match w.debouncer? id with
  | none => (w, [])
  | some d =>
    match d.ring now timer with
    | (none, _) => (w, [])
    | (some fp, d) => (w.setDebouncer id d).fire now id fp

/-- The worker of the queue takes a turn. -/
def takeTurn (now : Duration) (w : Watch) : Watch × List Effect :=
  if !w.queue.working then (w, [])
  else
    let (queue, settled, started) := w.queue.turn now
    let (w, effects) := { w with queue }.settle settled
    match started with
    | none => (w, effects)
    | some e =>
      ({ w with pursuit := some (e.work, .ofPolicy e.work.policy) },
        effects ++ [.wake (.work e.ticket)])

/-- Notes how the work of the running analysis ended. -/
def endWork (e : Reply) (w : Watch) : Watch × List Effect :=
  ({ w with queue := w.queue.finish e, pursuit := none }, [.wake .worker])

/-- Does what the pursuit of the running analysis does next. -/
def follow (ticket : Nat) (a : Analysis) (next : Pursuit.Next (List Finding)) (p : Pursuit)
    (w : Watch) : Watch × List Effect :=
  match next with
  | .sleeps until_ => ({ w with pursuit := some (a, p) }, [.alarm until_ (.work ticket)])
  | .calls => ({ w with pursuit := some (a, p) }, [.called ticket a])
  | .ends result => w.endWork (.returned result)

/-- The running analysis goes on, if it was waiting for a token or resting. -/
def goOn (now : Duration) (ticket : Nat) (w : Watch) : Watch × List Effect :=
  match w.queue.running, w.pursuit with
  | some r, some (a, p) =>
    if r.ticket ≠ ticket ∨ p.phase = .calling then (w, [])
    else
      match w.drawOn a.bucket fun b =>
          let (next, p, b) := p.resume now r.canceled b
          ((next, p), b) with
      | none => (w, [])
      | some ((next, p), w) => w.follow ticket a next p
  | _, _ => (w, [])

/-- The remote service has answered the running analysis, or the call broke down. -/
def answered (now : Duration) (ticket : Nat) (reply : Reply) (w : Watch) :
    Watch × List Effect :=
  match w.queue.running, w.pursuit with
  | some r, some (a, p) =>
    if r.ticket ≠ ticket ∨ p.phase ≠ .calling then (w, [])
    else
      match reply with
      | .panicked => w.endWork .panicked
      | .returned answer =>
        let (next, p) := p.answered now r.canceled answer
        w.follow ticket a next p
  | _, _ => (w, [])

/-- A settled analysis is completed. -/
def complete (now : Duration) (ticket : Nat) (w : Watch) : Watch × List Effect :=
  match w.owed.find? (·.ticket = ticket) with
  | none => (w, [])
  | some o =>
    match o.outcome with
    | none => (w, [])
    | some outcome =>
      { w with owed := w.owed.filter (·.ticket ≠ ticket) }.conclude now o.analysis outcome

/-- Runs a task. -/
def run (now : Duration) (t : Task) (w : Watch) : Watch × List Effect :=
  match t with
  | .debounce id timer due =>
    if now < due then (w, [.alarm due t]) else w.quiet now id timer
  | .worker => w.takeTurn now
  | .work ticket => w.goOn now ticket
  | .completion ticket => w.complete now ticket

/-! ## All of it -/

/-- What can happen to a watch. -/
inductive Event
  | opened (document : DocumentId) (content : String)
  | changed (document : DocumentId) (content : String)
  | saved (document : DocumentId)
  | closed (document : DocumentId)
  | reconfigured (options : WatchOptions) (config : Fingerprint)
  | configSet (config : Fingerprint)
  | shutDown
  | ran (task : Task)
  | answered (ticket : Nat) (reply : Reply)

/-- What an event does, from one point where control is given up to the next: no other event
comes in between. Two events that are dealt with at the same time, in threads of their own,
are beyond this. -/
def step (now : Duration) (e : Event) (w : Watch) : Watch × List Effect :=
  match e with
  | .opened id content | .changed id content => w.update now id content
  | .saved id => w.save now id
  | .closed id => w.close now id
  | .reconfigured options config => w.reconfigure now options config
  | .configSet config => ((w.setConfig config).2, [])
  | .shutDown => w.shutDown
  | .ran t => w.run now t
  | .answered ticket reply => w.answered now ticket reply

end Watch

end SmellWatch
