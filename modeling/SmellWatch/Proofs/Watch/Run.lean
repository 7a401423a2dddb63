import SmellWatch.Watch.Step
/-! Runs of a watch, and what can be told of them.

A run is how a watch was set up and what has happened to it since: events of the
editor, tasks that ran and answers of the remote service, in any order and at any time.
A run counts its steps; the number of a step is its `moment`.  A step deals with an
event as a whole.  What is proved of runs therefore takes for granted that control is given
up between events only, as `Watch.step` says; it says nothing about threads that deal with
two events at the same time and share the store.

The watch itself forgets.  A run remembers, from the effects of its steps, which
analyses were begun and how they ended (`cases`), since when a document is open
(`openSince?`), where its result comes from (`resultFrom?`), and what changed the
settings last (`lastChange?`). -/

namespace SmellWatch

namespace Watch

/-! ## Looking at what a step does -/

/-- The analysis that was begun, and whether the remote service is asked. -/
def Effect.begun? : Effect → Option (Analysis × Bool)
  | .begun a remote => some (a, remote)
  | _ => none

/-- Whether findings for a document are told. -/
def Effect.tellsOf (id : DocumentId) : Effect → Bool
  | .published d _ => d = id
  | _ => false

/-- The analysis that a step began; a step begins one at most. -/
def begun? (effects : List Effect) : Option (Analysis × Bool) := effects.findSome? Effect.begun?

def tellsOf (id : DocumentId) (effects : List Effect) : Bool := effects.any (Effect.tellsOf id)

/-- The settled analysis that an event concludes, by its ticket, and its outcome. -/
def concluded? (w : Watch) : Event → Option (Nat × Outcome)
  | .ran (.completion t) => ((w.owed.find? (·.ticket = t)).bind (·.outcome)).map fun o => (t, o)
  | _ => none

/-- The text that the editor says. -/
def Event.text? : Event → Option String
  | .opened _ content | .changed _ content => some content
  | _ => none

/-- The document whose text the editor says. -/
def Event.textOf? : Event → Option DocumentId
  | .opened id _ | .changed id _ => some id
  | _ => none

def Event.isReconfigured : Event → Bool
  | .reconfigured _ _ => true
  | _ => false

def Event.isShutDown : Event → Bool
  | .shutDown => true
  | _ => false

/-- The analysis of a ticket waits, runs, or is settled and not completed. -/
def IsUnderWay (w : Watch) (ticket : Nat) : Prop :=
  (∃ q ∈ w.queue.waiting, q.ticket = ticket) ∨
  (∃ x, w.queue.running = some x ∧ x.ticket = ticket) ∨
  ∃ o ∈ w.owed, o.ticket = ticket ∧ o.outcome.isSome

/-- Nothing is outstanding. -/
structure IsIdle (w : Watch) : Prop where
  quiet : ∀ p ∈ w.debouncers, p.2.isPending = false
  noneWaits : w.queue.waiting = []
  noneRuns : w.queue.running = none
  noneToComplete : ∀ o ∈ w.owed, o.outcome = none

instance (w : Watch) : Decidable w.IsIdle :=
  decidable_of_iff
    ((∀ p ∈ w.debouncers, p.2.isPending = false) ∧ w.queue.waiting.isEmpty = true ∧
      w.queue.running.isNone = true ∧ ∀ o ∈ w.owed, o.outcome.isNone = true)
    ⟨fun ⟨h₁, h₂, h₃, h₄⟩ => ⟨h₁, List.isEmpty_iff.mp h₂, Option.isNone_iff_eq_none.mp h₃,
        fun o ho => Option.isNone_iff_eq_none.mp (h₄ o ho)⟩,
      fun ⟨h₁, h₂, h₃, h₄⟩ => ⟨h₁, List.isEmpty_iff.mpr h₂, Option.isNone_iff_eq_none.mpr h₃,
        fun o ho => Option.isNone_iff_eq_none.mpr (h₄ o ho)⟩⟩

/-! ## Runs -/

inductive Run
  | start (options : WatchOptions) (config : Fingerprint) (now : Duration)
  | next (past : Run) (now : Duration) (event : Event)

/-- How an analysis was concluded, and when. -/
structure Ending where
  moment : Nat
  outcome : Outcome

/-- An analysis that was begun in a run, and what became of it. -/
structure Case where
  analysis : Analysis
  /-- Its ticket in the queue; what the heuristics answer at once has none. -/
  ticket : Option Nat
  begunAt : Nat
  /-- The settings that were in force when it was begun. -/
  config : Fingerprint
  ending : Option Ending := none

namespace Case

abbrev document (c : Case) : DocumentId := c.analysis.document

abbrev text (c : Case) : Fingerprint := c.analysis.fingerprint

/-- The case with the end of the analysis of a ticket noted. -/
def close (ticket : Nat) (x : Ending) (c : Case) : Case :=
  if c.ticket = some ticket then { c with ending := some x } else c

/-- It waits, runs, or is settled and not completed. -/
def IsUnderWay (c : Case) (w : Watch) : Prop := ∃ t, c.ticket = some t ∧ w.IsUnderWay t

/-- It went to the queue and has not ended. -/
def IsOpen (c : Case) : Prop := c.ticket.isSome ∧ c.ending = none

/-- It waited too long, was canceled, or the remote service said that it was canceled. -/
def EndedSilently (c : Case) : Prop :=
  ∃ x, c.ending = some x ∧
    (x.outcome = .error .timedOut ∨ x.outcome = .error .canceled ∨
      x.outcome = .error (.failed .canceled))

end Case

namespace Run

/-- The watch at the end of a run. -/
def watch : Run → Watch
  | start options config now => ofOptions options config now
  | next r now e => (r.watch.step now e).1

/-- What the last step did, if there is one. -/
def effects : Run → List Effect
  | start _ _ _ => []
  | next r now e => (r.watch.step now e).2

/-- The entry of a document at the end of a run. -/
def get? (r : Run) (id : DocumentId) : Option DocumentEntry := r.watch.store.get? id

/-- How many steps there were. -/
def moment : Run → Nat
  | start _ _ _ => 0
  | next r _ _ => r.moment + 1

/-- At the end of a run, and at each moment before. -/
def Always (P : Run → Prop) : Run → Prop
  | start options config now => P (start options config now)
  | next r now e => Always P r ∧ P (next r now e)

/-- What follows from what holds always holds always. -/
theorem Always.imp {P Q : Run → Prop} (h : ∀ r, Always P r → Q r) (r : Run)
    (hr : Always P r) : Always Q r := by
  induction r with
  | start options config now => exact h _ hr
  | next r now e ih => exact ⟨ih hr.1, h _ hr⟩

theorem Always.last {P : Run → Prop} {r : Run} (h : Always P r) : P r := by
  cases r with
  | start options config now => exact h
  | next r now e => exact h.2

/-- The watch was not shut down. -/
def IsUp : Run → Prop
  | start _ _ _ => True
  | next r _ e => IsUp r ∧ e.isShutDown = false

instance decidableIsUp : (r : Run) → Decidable r.IsUp
  | start _ _ _ => isTrue trivial
  | next r _ e =>
    have := decidableIsUp r
    inferInstanceAs (Decidable (r.IsUp ∧ e.isShutDown = false))

/-- The analysis that the next step begins. -/
def began? (r : Run) (now : Duration) (e : Event) : Option Case :=
  (begun? (r.watch.step now e).2).map fun (a, remote) =>
    { analysis := a
      ticket := if remote then some r.watch.queue.nextTicket else none
      begunAt := r.moment
      config := r.watch.store.config }

/-- What becomes of a case when an event concludes an analysis. -/
def closing (r : Run) (e : Event) (c : Case) : Case :=
  match r.watch.concluded? e with
  | some (t, o) => c.close t ⟨r.moment, o⟩
  | none => c

/-- The analyses that were begun, the newest first. -/
def cases : Run → List Case
  | start _ _ _ => []
  | next r now e => (r.began? now e).toList ++ r.cases.map (r.closing e)

/-- The case of a ticket. -/
def caseOf? (r : Run) (ticket : Nat) : Option Case := r.cases.find? (·.ticket = some ticket)

/-- The moment at which an open document was opened. -/
def openSince? (id : DocumentId) : Run → Option Nat
  | start _ _ _ => none
  | next r now e =>
    if ((next r now e).get? id).isSome then some ((r.openSince? id).getD r.moment) else none

/-- The analyses of an open document that were begun since it was opened, the newest
first. -/
def stay (r : Run) (id : DocumentId) : List Case :=
  match r.openSince? id with
  | none => []
  | some m => r.cases.filter fun c => c.document = id ∧ m ≤ c.begunAt

/-- The moment that the result of an open document stems from: the one at which its
analysis was begun, or the one at which it was taken from the cache. -/
def resultFrom? (id : DocumentId) : Run → Option Nat
  | start _ _ _ => none
  | next r now e =>
    if ((next r now e).get? id).isSome then
      if tellsOf id (r.watch.step now e).2 then
        match r.watch.concluded? e with
        | some (t, _) => (r.caseOf? t).map (·.begunAt)
        | none => some r.moment
      else r.resultFrom? id
    else none

/-- The moment at which the fingerprint of the settings changed last, and whether other
settings were adopted then (`reconfigured`). -/
def lastChange? : Run → Option (Nat × Bool)
  | start _ _ _ => none
  | next r now e =>
    if (next r now e).watch.store.config = r.watch.store.config then r.lastChange?
    else some (r.moment, e.isReconfigured)

/-! ## Runs step by step -/

/-- A run goes on. -/
def after (r : Run) (l : List (Duration × Event)) : Run :=
  l.foldl (fun r x => r.next x.1 x.2) r

/-- A document is opened, is left alone for half a second, and the remote service is asked
about it. -/
def asking : Run :=
  let half := Duration.ofMillis 500
  let settings : AnalysisSettings := { requestsPerMinute := 60, rules := ["errors"] }
  (start (.ofConfig { analysis := settings }) ⟨"e76f3a43e0a9ab77"⟩ 0).after
    [(0, .opened ⟨"a.go"⟩ "x"), (half, .ran (.debounce ⟨"a.go"⟩ ⟨0, 1⟩ half)),
      (half, .ran .worker), (half, .ran (.work 0))]

/-- What is adopted when the settings change while the service is asked. -/
def otherSettings : Event :=
  .reconfigured (.ofConfig { analysis := { requestsPerMinute := 60, rules := ["naming"] } })
    ⟨"2741ca62dc7b8344"⟩

/-- A document is opened and left alone, and its analysis waits for too long. -/
def unheard : Run :=
  let half := Duration.ofMillis 500
  let late := Duration.ofSeconds 31
  (start (.ofConfig {}) ⟨"e76f3a43e0a9ab77"⟩ 0).after
    [(0, .opened ⟨"a.go"⟩ "x"), (half, .ran (.debounce ⟨"a.go"⟩ ⟨0, 1⟩ half)),
      (late, .ran .worker), (late, .ran (.completion 0))]

/-- The text of the document has been left alone since the call that set a timer. -/
def leftAlone (r : Run) (timer : Debouncer.Timer) (due : Duration) : Run :=
  r.next due (.ran (.debounce ⟨"a.go"⟩ timer due))

end Run

end Watch

end SmellWatch
