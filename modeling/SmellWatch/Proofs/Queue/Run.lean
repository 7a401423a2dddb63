import SmellWatch.Proofs.RequestQueue
/-! Runs of a queue, and what is seen of them.

A run is the greatest age that a queue was set up with and what was done to it since, one
deed after the other, by those who use it, by the worker, and by the works that end.  The
turn of the worker is two deeds here, `reap` and `start`, so that others may come between
them (`turn_eq`).

The queue forgets what is settled.  A run remembers, from its steps, which requests came
(`requests`), which of them started (`starts`), how their works ended (`ends`), what was
settled (`settled`), and which tickets were canceled (`canceled`) or dropped (`dropped`),
each in the order in which it happened.  What it has of one ticket is its `tale`. -/

namespace SmellWatch

namespace RequestQueue

variable {α β ε : Type}

/-- What can happen to a queue. -/
inductive Deed (α β ε : Type)
  | enqueue (key : DocumentId) (work : α)
  /-- Nobody waits for a ticket any more. -/
  | drop (ticket : Nat)
  | setMaxAge (age : Duration)
  /-- The requests of one document are canceled, or all, or some others. -/
  | cancel (wanted : DocumentId → Bool)
  /-- The work of the request that runs ends, if it has not ended yet. -/
  | endWork (e : WorkEnd β ε)
  /-- The worker settles the request whose work has ended. -/
  | reap
  /-- The worker looks for the next request, unless one runs. -/
  | start
  /-- Time goes by. -/
  | wait (time : Duration)

/-- The ticket of the request whose work has started and not ended. -/
def atWork? (q : RequestQueue α β ε) : Option Nat :=
  (q.running.filter (·.ended.isNone)).map (·.ticket)

/-- The queue after a deed, what the deed settles, and the request that it starts. -/
def perform (now : Duration) (q : RequestQueue α β ε) :
    Deed α β ε → RequestQueue α β ε × List (Settled β ε) × Option (Waiting α)
  | .enqueue key work => ((q.enqueue now key work).queue, (q.enqueue now key work).settled, none)
  | .drop ticket => (q.abandon ticket, [], none)
  | .setMaxAge age => (q.setMaxAge age, [], none)
  | .cancel wanted => ((q.cancelWhere wanted).queue, (q.cancelWhere wanted).settled, none)
  | .endWork e => (if q.atWork?.isSome then q.finish e else q, [], none)
  | .reap => (q.reap.1, q.reap.2, none)
  | .start => if q.running.isSome then (q, [], none) else q.startNext now
  | .wait _ => (q, [], none)

/-- A turn of the worker is what it does first and what it does then. -/
theorem turn_eq (now : Duration) (q : RequestQueue α β ε) :
    q.turn now =
      ((perform now (perform now q .reap).1 .start).1,
        (perform now q .reap).2.1 ++ (perform now (perform now q .reap).1 .start).2.1,
        (perform now (perform now q .reap).1 .start).2.2) := by
  rcases hq : q.reap with ⟨q₁, settled⟩
  unfold turn
  simp only [perform, hq]
  cases hr : q₁.running with
  | none => simp
  | some x => simp

/-- What is known of a request when it comes. -/
structure Request (α : Type) where
  ticket : Nat
  key : DocumentId
  work : α
  since : Duration
deriving DecidableEq, Repr

def Waiting.request (w : Waiting α) : Request α := ⟨w.ticket, w.key, w.work, w.since⟩

/-! ## Runs -/

inductive Run (α β ε : Type)
  | start (maxAge : Duration)
  | next (past : Run α β ε) (deed : Deed α β ε)

namespace Run

/-- The time that a deed takes. -/
def timeOf : Deed α β ε → Duration
  | .wait time => time
  | _ => 0

/-- The time at the end of a run, since its start. -/
def now : Run α β ε → Duration
  | start _ => 0
  | next r d => r.now + timeOf d

/-- The queue at the end of a run. -/
def queue : Run α β ε → RequestQueue α β ε
  | start maxAge => { maxAge }
  | next r d => (perform r.now r.queue d).1

/-- The deeds of a run, each with the run up to it. -/
def steps : Run α β ε → List (Run α β ε × Deed α β ε)
  | start _ => []
  | next r d => r.steps ++ [(r, d)]

/-! ## What a deed does at the end of a run -/

def settles (r : Run α β ε) (d : Deed α β ε) : List (Settled β ε) :=
  (perform r.now r.queue d).2.1

def starting? (r : Run α β ε) (d : Deed α β ε) : Option (Request α) :=
  (perform r.now r.queue d).2.2.map (·.request)

def coming? (r : Run α β ε) : Deed α β ε → Option (Request α)
  | .enqueue key work => some ⟨r.queue.nextTicket, key, work, r.now⟩
  | _ => none

def ending? (r : Run α β ε) : Deed α β ε → Option (Nat × WorkEnd β ε)
  | .endWork e => r.queue.atWork?.map fun t => (t, e)
  | _ => none

/-- The tickets of the requests that a deed cancels, waiting or running. -/
def cancels (r : Run α β ε) : Deed α β ε → List Nat
  | .cancel wanted =>
    (r.queue.waiting.filter (wanted ·.key)).map (·.ticket) ++
      ((r.queue.running.filter (wanted ·.key)).map (·.ticket)).toList
  | _ => []

/-- The ticket that a deed drops; only those that were given out can be dropped. -/
def dropping? (r : Run α β ε) : Deed α β ε → Option Nat
  | .drop t => if t < r.queue.nextTicket then some t else none
  | _ => none

/-! ## What a run has seen -/

def requests (r : Run α β ε) : List (Request α) := r.steps.filterMap fun x => x.1.coming? x.2

def starts (r : Run α β ε) : List (Request α) := r.steps.filterMap fun x => x.1.starting? x.2

def ends (r : Run α β ε) : List (Nat × WorkEnd β ε) := r.steps.filterMap fun x => x.1.ending? x.2

def settled (r : Run α β ε) : List (Settled β ε) := r.steps.flatMap fun x => x.1.settles x.2

def canceled (r : Run α β ε) : List Nat := r.steps.flatMap fun x => x.1.cancels x.2

def dropped (r : Run α β ε) : List Nat := r.steps.filterMap fun x => x.1.dropping? x.2

section Next

variable (r : Run α β ε) (d : Deed α β ε) (maxAge : Duration)

@[simp] theorem requests_next : (r.next d).requests = r.requests ++ (r.coming? d).toList := by
  unfold requests
  cases h : r.coming? d <;> simp [steps, h]

@[simp] theorem starts_next : (r.next d).starts = r.starts ++ (r.starting? d).toList := by
  unfold starts
  cases h : r.starting? d <;> simp [steps, h]

@[simp] theorem ends_next : (r.next d).ends = r.ends ++ (r.ending? d).toList := by
  unfold ends
  cases h : r.ending? d <;> simp [steps, h]

@[simp] theorem settled_next : (r.next d).settled = r.settled ++ r.settles d := by
  simp [settled, steps]

@[simp] theorem canceled_next : (r.next d).canceled = r.canceled ++ r.cancels d := by
  simp [canceled, steps]

@[simp] theorem dropped_next : (r.next d).dropped = r.dropped ++ (r.dropping? d).toList := by
  unfold dropped
  cases h : r.dropping? d <;> simp [steps, h]

end Next

theorem mem_settled {r : Run α β ε} {s : Settled β ε} :
    s ∈ r.settled ↔ ∃ p d, (p, d) ∈ r.steps ∧ s ∈ p.settles d := by
  simp [settled]

/-! ## One ticket -/

end Run

/-- What is seen of a ticket: what it was settled with, when its request started, how its
work ended, and whether it was canceled or dropped. -/
structure Tale (α β ε : Type) where
  results : List (Except (QueueError ε) β) := []
  starts : List (Request α) := []
  ends : List (WorkEnd β ε) := []
  canceled : Bool := false
  dropped : Bool := false

/-- One thing is seen after the other. -/
def Tale.append (a b : Tale α β ε) : Tale α β ε where
  results := a.results ++ b.results
  starts := a.starts ++ b.starts
  ends := a.ends ++ b.ends
  canceled := a.canceled || b.canceled
  dropped := a.dropped || b.dropped

namespace Run

/-- What a run has seen of a ticket. -/
def tale (r : Run α β ε) (t : Nat) : Tale α β ε where
  results := (r.settled.filter (·.ticket = t)).map (·.result)
  starts := r.starts.filter (·.ticket = t)
  ends := (r.ends.filter (·.1 = t)).map (·.2)
  canceled := t ∈ r.canceled
  dropped := t ∈ r.dropped

/-- What a deed shows of a ticket. -/
def shows (r : Run α β ε) (d : Deed α β ε) (t : Nat) : Tale α β ε where
  results := ((r.settles d).filter (·.ticket = t)).map (·.result)
  starts := (r.starting? d).toList.filter (·.ticket = t)
  ends := ((r.ending? d).toList.filter (·.1 = t)).map (·.2)
  canceled := t ∈ r.cancels d
  dropped := t ∈ (r.dropping? d).toList

theorem tale_next (r : Run α β ε) (d : Deed α β ε) (t : Nat) :
    (r.next d).tale t = (r.tale t).append (r.shows d t) := by
  simp [tale, shows, Tale.append, List.filter_append]

theorem mem_results {r : Run α β ε} {t : Nat} {x : Except (QueueError ε) β} :
    x ∈ (r.tale t).results ↔ ⟨t, x⟩ ∈ r.settled := by
  simp only [tale, List.mem_map, List.mem_filter, decide_eq_true_eq]
  constructor
  · rintro ⟨s, ⟨hs, rfl⟩, rfl⟩
    exact hs
  · intro hs
    exact ⟨_, ⟨hs, rfl⟩, rfl⟩

end Run

end RequestQueue

end SmellWatch
