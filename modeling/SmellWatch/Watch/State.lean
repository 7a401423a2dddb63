import SmellWatch.Agenda
import SmellWatch.Debouncer
import SmellWatch.Decimal.Shortest
import SmellWatch.DocumentStore
import SmellWatch.Pacing.Pursuit
import SmellWatch.Prompt
import SmellWatch.RequestQueue
import SmellWatch.Watch.Options
/-! The watch over the open documents, as a value.

The watch holds the store, the queue, a debouncer for each document that was edited,
the token buckets, and what is owed: the analyses that were begun and not yet
completed. What it does is told as effects: findings that are published, calls that are
made on the remote service, and tasks that have to run, now or later. -/

namespace SmellWatch

/-- One analysis, with all that was in force when it was begun. -/
structure Analysis where
  document : DocumentId
  fingerprint : Fingerprint
  content : String
  /-- The number of the analysis among those of the document. -/
  seq : Nat
  rules : List String
  policy : RetryPolicy
  /-- The place of its token bucket. -/
  bucket : Nat
  /-- How often the remote service had been replaced. -/
  service : Nat
deriving DecidableEq, Repr

namespace Analysis

/-- What the remote service is asked. -/
def request (a : Analysis) : AnalysisRequest :=
  .ofDocument a.document a.content a.rules

end Analysis

namespace Watch

/-- How a call on the remote service ended. -/
abbrev Reply := WorkEnd (List Finding) RemoteError

/-- What came of a queued analysis. -/
abbrev Outcome := Except (QueueError RemoteError) (List Finding)

/-- An analysis in the queue, or settled and not yet completed. -/
structure Owed where
  ticket : Nat
  analysis : Analysis
  outcome : Option Outcome := none

/-- What has to be done by and by. -/
inductive Task
  /-- A document has been left alone until `due`, if nothing came in between. -/
  | debounce (document : DocumentId) (timer : Debouncer.Timer) (due : Duration)
  /-- The worker of the queue takes a turn. -/
  | worker
  /-- The running analysis goes on. -/
  | work (ticket : Nat)
  /-- A settled analysis is completed. -/
  | completion (ticket : Nat)
deriving DecidableEq, Repr

inductive Effect
  /-- These are the findings for a document from now on. -/
  | published (document : DocumentId) (findings : List Finding)
  /-- An analysis was begun; it goes to the remote service, or to the heuristics
  because the service refused the key. -/
  | begun (analysis : Analysis) (remote : Bool)
  /-- The running analysis calls the remote service. -/
  | called (ticket : Nat) (analysis : Analysis)
  /-- A task has to run. -/
  | ordered (order : Agenda.Order Task)

/-- A task is ready. -/
def Effect.wake (t : Task) : Effect := .ordered (.wake t)

/-- A task is to be woken at a time. -/
def Effect.alarm (time : Duration) (t : Task) : Effect := .ordered (.alarm time t)

end Watch

open Watch in
structure Watch where
  options : WatchOptions
  store : DocumentStore
  queue : RequestQueue Analysis (List Finding) RemoteError
  debouncers : List (DocumentId × Debouncer Fingerprint) := []
  /-- How many timers were set. -/
  timers : Nat := 0
  /-- The last one is in use; analyses begun earlier may still draw on the others. -/
  buckets : List (TokenBucket Float)
  /-- How often the remote service was replaced. -/
  service : Nat := 0
  /-- The fingerprint of the settings whose key the service refused. -/
  refused : Option Fingerprint := none
  /-- The analysis that runs, and how far it is. -/
  pursuit : Option (Analysis × Pursuit) := none
  owed : List Owed := []

namespace Watch

def ofOptions (options : WatchOptions) (config : Fingerprint) (now : Duration) : Watch :=
  { options
    store := { config, maxCacheAge := options.cacheMaxAge }
    queue := { maxAge := options.maxQueueAge }
    buckets := [.full options.requestsPerMinute now] }

/-! ## Looking -/

/-- The place of the bucket in use. -/
def bucket (w : Watch) : Nat := w.buckets.length - 1

/-- Draws on a bucket. -/
def drawOn {γ : Type} (w : Watch) (i : Nat) (f : TokenBucket Float → γ × TokenBucket Float) :
    Option (γ × Watch) :=
  w.buckets[i]?.map fun b =>
    let (x, b) := f b
    (x, { w with buckets := w.buckets.set i b })

def debouncer? (w : Watch) (id : DocumentId) : Option (Debouncer Fingerprint) :=
  (w.debouncers.find? (·.1 = id)).map (·.2)

/-- Puts a debouncer in the place of the one that a document has, or adds it. -/
def setDebouncer (w : Watch) (id : DocumentId) (d : Debouncer Fingerprint) : Watch :=
  if (w.debouncer? id).isSome then
    { w with debouncers := w.debouncers.map fun p => if p.1 = id then (id, d) else p }
  else { w with debouncers := w.debouncers ++ [(id, d)] }

/-- Takes debouncers away. Their timers are aborted: no debouncer has them any more. -/
def dropDebouncers (w : Watch) (gone : DocumentId → Bool) : Watch :=
  { w with debouncers := w.debouncers.filter fun p => !gone p.1 }

/-- A view of the watch for a reader. -/
structure Status where
  documents : Nat
  queued : Nat
  running : Option DocumentId
  availableTokens : Float
  cachedResults : Nat
  config : Fingerprint

/-- The status; to look at the tokens fills the bucket up. -/
def status (now : Duration) (w : Watch) : Status × Watch :=
  let (tokens, w) := (w.drawOn w.bucket (·.available now)).getD (0, w)
  ({ documents := w.store.size
     queued := w.queue.size
     running := w.queue.runningKey?
     availableTokens := tokens
     cachedResults := w.store.cacheSize
     config := w.store.config }, w)

/-- Tokens for a reader: positional from a ten-thousandth up to 10^16. -/
def tokenStyle : Decimal.Style := ⟨-4, 15, ""⟩

/-- The status for a reader. -/
def Status.shown (s : Status) : String :=
  let running := match s.running with
    | none => "None"
    | some d => "Some(DocumentId(" ++ Text.quoted d.name ++ "))"
  "AnalysisOrchestrator \x7b status: OrchestratorStatus \x7b " ++
  s!"documents: {s.documents}, queued: {s.queued}, executing: {s.running.isSome}, " ++
  "executing_document: " ++ running ++ ", available_tokens: " ++
  tokenStyle.writeBits .double s.availableTokens.toBits.toNat ++
  s!", cached_results: {s.cachedResults}, config_fingerprint: Fingerprint(" ++
  Text.quoted s.config.hex ++ ") \x7d, .. \x7d"

/-! ## Settling -/

/-- Notes what came of some analyses; their completions are ready. -/
def settle (settled : List (RequestQueue.Settled (List Finding) RemoteError)) (w : Watch) :
    Watch × List Effect :=
  ({ w with
     owed := w.owed.map fun o =>
       match settled.find? (·.ticket = o.ticket) with
       | some s => { o with outcome := some s.result }
       | none => o },
    settled.map fun s => .wake (.completion s.ticket))

end Watch

end SmellWatch
