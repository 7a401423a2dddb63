import Mathlib.Data.Prod.Lex
import SmellWatch.Proofs.Pacing.Refills
import SmellWatch.Proofs.Queue.Passage
import SmellWatch.Proofs.Watch.Accounts
import SmellWatch.Proofs.Watch.Rehearsal
/-! What a task does in a rehearsal.

A task does one of five things (`Moves`): nothing that matters to the queue, being put off because
it comes too early, a step of the analysis that is at work, the end of its work, and a turn of the
worker.  All that is said of tasks elsewhere is said by these cases (`Fit.moves`).

A step of the analysis leaves fewer calls to be made, or brings the next one nearer (`course`).
The end of a work, and a turn of the worker, leave less for the queue to do (`load`). -/

namespace SmellWatch

namespace Watch

variable {now time : Duration} {w w' : Watch} {a : Analysis} {p : Pursuit}
  {b : TokenBucket Float} {reply : Reply}

abbrev Running := RequestQueue.Running (List Finding) RemoteError

variable {x : Running}

/-- The work of this request has started, and not ended. -/
def IsAtWork (w : Watch) (x : Running) : Prop := w.queue.running = some x ∧ x.ended = none

theorem IsAtWork.unique {y : Running} (hx : w.IsAtWork x) (hy : w.IsAtWork y) : x = y :=
  Option.some.inj (hx.1.symm.trans hy.1)

/-- The worker has something to do: it takes in how a work has ended, or looks for the next
request. -/
def NeedsTurn (w : Watch) : Prop := w.queue.working = true ∧ ∀ x, ¬ w.IsAtWork x

/-- No document waits to be left alone. -/
def IsQuiet (w : Watch) : Prop := ∀ x ∈ w.debouncers, x.2.isPending = false

/-! ## The running analysis -/

/-- How far a pursuit is: how many more calls there can be, and how far off the next one is. -/
def course (b : TokenBucket Float) (p : Pursuit) : ℕ ×ₗ ℕ :=
  toLex (p.policy.callsLeft p.attempts, p.search b)

/-- What a watch does that hears how its call went. -/
inductive Hears (now : Duration) (w : Watch) (x : Running) (a : Analysis) (p : Pursuit) :
    Watch × List Effect → Prop
  | ends (reply : Reply) : Hears now w x a p (w.endWork reply)
  | rests (p' : Pursuit) (time : Duration) (hwakes : p'.wakesAt? = some time)
      (hless : ∀ b, course b p' < course b p) :
      Hears now w x a p
        ({ w with pursuit := some (a, p') }, [.alarm time (.work x.ticket)])

theorem Hears.debouncers {y : Watch × List Effect} (h : Hears now w x a p y) :
    y.1.debouncers = w.debouncers := by
  cases h <;> rfl

theorem hears (hrunning : w.queue.running = some x) (hpursuit : w.pursuit = some (a, p))
    (hcalling : p.phase = .calling) (now : Duration) (reply : Reply) :
    Hears now w x a p (w.answered now x.ticket reply) := by
  unfold answered
  rw [hrunning, hpursuit]
  dsimp only
  rw [if_neg (by simp [hcalling])]
  cases reply with
  | panicked => exact .ends .panicked
  | returned answer =>
    have hnext := Pursuit.hears now x.canceled p answer
    dsimp only
    generalize p.answered now x.canceled answer = y at hnext ⊢
    cases hnext with
    | succeeds y => exact .ends _
    | givesUp e hfinal => exact .ends _
    | canceled e d h hdelay => exact .ends _
    | rests e d h hdelay =>
      refine .rests _ (now + d) rfl fun b => ?_
      exact Prod.Lex.toLex_lt_toLex.mpr (.inl (RetryPolicy.callsLeft_lt hdelay))

/-- What a watch does whose running analysis is woken. -/
inductive Wakes (now : Duration) (w : Watch) (x : Running) (a : Analysis) (p : Pursuit)
    (b : TokenBucket Float) (time : Duration) : Watch × List Effect → Prop
  | ends (reply : Reply) : Wakes now w x a p b time (w.endWork reply)
  | early (hearly : now < time) : Wakes now w x a p b time (w, [.alarm time (.work x.ticket)])
  | calls (b' : TokenBucket Float) (hsound : b'.IsSound) (p' : Pursuit)
      (hcalling : p'.phase = .calling) (hless : course b' p' < course b p) :
    Wakes now w x a p b time
      ({ w with buckets := w.buckets.set a.bucket b', pursuit := some (a, p') },
        [.called x.ticket a])
  | sleeps (b' : TokenBucket Float) (hsound : b'.IsSound) (p' : Pursuit) (next : Duration)
      (hwakes : p'.wakesAt? = some next) (hless : course b' p' < course b p) :
    Wakes now w x a p b time
      ({ w with buckets := w.buckets.set a.bucket b', pursuit := some (a, p') },
        [.alarm next (.work x.ticket)])

theorem wakes (hrunning : w.queue.running = some x) (hpursuit : w.pursuit = some (a, p))
    (hbucket : w.buckets[a.bucket]? = some b) (hsound : b.IsSound)
    (hwakes : p.wakesAt? = some time) (now : Duration) :
    Wakes now w x a p b time (w.goOn now x.ticket) := by
  have hcalling : ¬ p.phase = .calling := by
    rw [← Pursuit.wakesAt?_eq_none, hwakes]
    nofun
  have hsame : w.buckets.set a.bucket b = w.buckets := by
    obtain ⟨hlt, rfl⟩ := List.getElem?_eq_some_iff.mp hbucket
    exact List.set_getElem_self hlt
  have hnext : Pursuit.Wakes now x.canceled b p time
      (p.resume now x.canceled b : Pursuit.Next (List Finding) × _) := Pursuit.wakes hsound hwakes
  unfold goOn drawOn
  rw [hrunning, hpursuit]
  dsimp only
  rw [if_neg (by simp [hcalling]), hbucket]
  dsimp only [Option.map_some]
  generalize p.resume now x.canceled b = y at hnext ⊢
  cases hnext with
  | canceled =>
    dsimp only
    rw [hsame, ← hpursuit]
    exact .ends _
  | early hearly =>
    dsimp only [follow]
    rw [hsame, ← hpursuit]
    exact .early hearly
  | calls b' hsound' =>
    exact .calls b' hsound' _ rfl (Prod.Lex.toLex_lt_toLex.mpr (.inr ⟨rfl, p.search_pos b hwakes⟩))
  | sleeps b' hsound' next hnearer =>
    exact .sleeps b' hsound' _ next rfl (Prod.Lex.toLex_lt_toLex.mpr (.inr ⟨rfl, hnearer⟩))

/-! ## The queue -/

/-- How much there is to do for a queue: for a request that waits, that is at work, and whose work
has ended. -/
def load (q : Queue) : Nat :=
  3 * q.waiting.length +
    match q.running with
    | none => 0
    | some x => if x.ended.isNone then 2 else 1

theorem load_finish (h : w.IsAtWork x) (reply : Reply) :
    load (w.queue.finish reply) < load w.queue := by
  obtain ⟨hrunning, hended⟩ := h
  unfold load RequestQueue.finish
  rw [hrunning]
  simp [hended]

theorem empty_of_load {q : Queue} (h : load q = 0) : q.waiting = [] ∧ q.running = none := by
  unfold load at h
  refine ⟨List.length_eq_zero_iff.mp (by omega), ?_⟩
  cases hrunning : q.running with
  | none => rfl
  | some x =>
    rw [hrunning] at h
    dsimp only at h
    split at h <;> omega

/-- What a worker does that takes in how the last work has ended, and looks for the next request. -/
inductive Turns (q : Queue) : Queue × List Settled × Option (RequestQueue.Waiting Analysis) → Prop
  | rests (settled : List Settled) (hnothing : load q = 0 → settled = []) :
    Turns q ({ q with waiting := [], running := none, working := false }, settled, none)
  | starts (settled : List Settled) (y : RequestQueue.Waiting Analysis)
      (rest : List (RequestQueue.Waiting Analysis)) (hy : y ∈ q.waiting)
      (hrest : ∀ z ∈ rest, z ∈ q.waiting) (hless : rest.length < q.waiting.length) :
    Turns q ({ q with waiting := rest, running := some { ticket := y.ticket, key := y.key } },
      settled, some y)

theorem turns {q : Queue} (hidle : ∀ x, q.running = some x → x.ended ≠ none) (now : Duration) :
    Turns q (q.turn now) := by
  obtain ⟨settled, hreap, hnothing⟩ : ∃ settled, q.reap = ({ q with running := none }, settled) ∧
      (q.running = none → settled = []) := by
    unfold RequestQueue.reap
    cases hrunning : q.running with
    | none =>
      have hsame : q = { q with running := none } := by rw [← hrunning]
      exact ⟨[], congrArg (·, []) hsame, fun _ => rfl⟩
    | some x =>
      dsimp only
      cases hended : x.ended with
      | none => exact absurd hended (hidle x hrunning)
      | some e => exact ⟨_, rfl, nofun⟩
  have hturn : ∀ next : Queue × List Settled × Option (RequestQueue.Waiting Analysis),
      RequestQueue.startNext now { q with running := none } = next →
      q.turn now = (next.1, settled ++ next.2.1, next.2.2) := by
    rintro _ rfl
    unfold RequestQueue.turn
    rw [hreap]
  cases RequestQueue.startsNext now { q with running := none } with
  | rests _ heq =>
    rw [hturn _ heq]
    refine .rests _ fun hload => ?_
    obtain ⟨hwaiting, hrunning⟩ := empty_of_load hload
    rw [hnothing hrunning, hwaiting]
    rfl
  | finds passed y rest hsplit _ _ _ heq =>
    rw [hturn _ heq]
    have hsplit : q.waiting = passed ++ y :: rest := hsplit
    refine .starts _ y rest ?_ (fun z hz => ?_) ?_
    · simp [hsplit]
    · simp [hsplit, hz]
    · rw [hsplit, List.length_append, List.length_cons]
      omega

theorem not_isAtWork_of_finish (h : w.IsAtWork x) {reply : Reply}
    (hqueue : w'.queue = w.queue.finish reply) (y : Running) : ¬ w'.IsAtWork y := by
  rintro ⟨hrunning, hended⟩
  rw [hqueue] at hrunning
  unfold RequestQueue.finish at hrunning
  rw [h.1] at hrunning
  obtain rfl := Option.some.inj hrunning
  cases hended

/-- While the work of a request goes on, a worker does nothing. -/
theorem turn_of_isAtWork (h : w.IsAtWork x) (now : Duration) :
    w.queue.turn now = (w.queue, [], none) := by
  have hreap : w.queue.reap = (w.queue, []) := by
    unfold RequestQueue.reap
    rw [h.1]
    dsimp only
    rw [h.2]
  unfold RequestQueue.turn
  rw [hreap]
  dsimp only
  rw [h.1]

/-- The pursuit of the request that a worker starts. -/
def pursued (started : Option (RequestQueue.Waiting Analysis)) (w : Watch) :
    Option (Analysis × Pursuit) :=
  match started with
  | none => w.pursuit
  | some y => some (y.work, .ofPolicy y.work.policy)

/-- What a worker that takes a turn has to have done. -/
def turnOrders (settled : List Settled) (started : Option (RequestQueue.Waiting Analysis)) :
    List (Agenda.Order Task) :=
  settled.map (fun s => .wake (.completion s.ticket)) ++
    (started.map fun y => Agenda.Order.wake (Task.work y.ticket)).toList

theorem takeTurn_of_working (hworking : w.queue.working = true) {q : Queue} {settled : List Settled}
    {started : Option (RequestQueue.Waiting Analysis)}
    (hturn : w.queue.turn now = (q, settled, started)) :
    w.takeTurn now =
      ({ w with
          queue := q
          owed := w.owed.map (Owed.settledBy settled)
          pursuit := w.pursued started },
        (turnOrders settled started).map .ordered) := by
  unfold takeTurn turnOrders
  rw [hworking, hturn]
  dsimp only [Bool.not_true, Bool.false_eq_true, if_false]
  rw [settle_eq]
  cases started <;> simp [pursued, Effect.wake]

/-- A turn leaves less to do, unless there is nothing to do. -/
theorem Turns.load_lt {q : Queue}
    {y : Queue × List Settled × Option (RequestQueue.Waiting Analysis)} (h : Turns q y) :
    load y.1 < load q ∨ load q = 0 ∧ load y.1 = 0 ∧ y.2 = ([], none) := by
  cases h with
  | rests settled hnothing =>
    have hzero : load { q with waiting := [], running := none, working := false } = 0 := rfl
    rcases Nat.eq_zero_or_pos (load q) with hload | hpos
    · exact .inr ⟨hload, hzero, by rw [hnothing hload]⟩
    · exact .inl (hzero.trans_lt hpos)
  | starts settled y rest hy hrest hless =>
    left
    unfold load
    simp only [Option.isNone_none, if_true]
    omega

/-! ## What is owed -/

/-- To take in the end of an analysis is between the store and the editor. -/
theorem conclude_eq (now : Duration) (a : Analysis) (o : Outcome) (w : Watch) :
    ∃ store refused fx, w.conclude now a o = ({ w with store, refused }, fx) ∧
      fx.filterMap Effect.order? = [] := by
  unfold conclude
  cases verdict o with
  | found findings =>
    dsimp only
    split
    · exact ⟨_, w.refused, _, rfl, rfl⟩
    · exact ⟨_, w.refused, [], rfl, rfl⟩
  | failed e =>
    obtain ⟨lead, refused, hnotice⟩ := noticeFor_eq e w
    dsimp only
    rw [hnotice]
    unfold fallBack
    dsimp only
    split
    · exact ⟨_, refused, _, rfl, rfl⟩
    · exact ⟨_, refused, [], rfl, rfl⟩
  | dropped => exact ⟨_, w.refused, [], rfl, rfl⟩

/-- After a completion that analysis is not owed any more, if it had an outcome. -/
theorem complete_eq (now : Duration) (ticket : Nat) (w : Watch)
    (hdistinct : (w.owed.map (·.ticket)).Nodup) :
    ∃ store refused owed fx, w.complete now ticket = ({ w with store, refused, owed }, fx) ∧
      owed.Sublist w.owed ∧ (∀ o ∈ owed, o.outcome ≠ none → o.ticket ≠ ticket) ∧
      fx.filterMap Effect.order? = [] := by
  unfold complete
  cases hfound : w.owed.find? (·.ticket = ticket) with
  | none =>
    refine ⟨w.store, w.refused, w.owed, [], rfl, .refl _, fun o ho _ => ?_, rfl⟩
    simpa using List.find?_eq_none.mp hfound o ho
  | some o =>
    dsimp only
    have ho := List.mem_of_find?_eq_some hfound
    have hticket : o.ticket = ticket := by simpa using List.find?_some hfound
    cases houtcome : o.outcome with
    | none =>
      refine ⟨w.store, w.refused, w.owed, [], rfl, .refl _, fun p hp hsome hpt => hsome ?_, rfl⟩
      rw [List.inj_on_of_nodup_map hdistinct hp ho (hpt.trans hticket.symm), houtcome]
    | some outcome =>
      obtain ⟨store, refused, fx, heq, horders⟩ := conclude_eq now o.analysis outcome
        { w with owed := w.owed.filter (·.ticket ≠ ticket) }
      refine ⟨store, refused, _, fx, heq, List.filter_sublist, fun p hp _ => ?_, horders⟩
      simpa using (List.mem_filter.mp hp).2

end Watch

/-! ## Steps of a rehearsal -/

namespace Rehearsal

open Watch

variable {σ : Type} {r r' : Rehearsal σ} {now : Duration} {fx : List Effect} {w' : Watch}
  {f : Watch → Watch × List Effect}

theorem stepWatch_of_noCall (hf : f r.watch = (w', fx)) (h : calls fx = []) (now : Duration) :
    ∃ log, stepWatch now f r = ({ r with watch := w', log }, fx.filterMap Effect.order?) := by
  obtain ⟨log, heq⟩ := absorb_of_noCall h now { r with watch := w' }
  refine ⟨log, ?_⟩
  unfold stepWatch
  rw [hf]
  dsimp only
  rw [heq]

theorem absorb_called (now : Duration) (ticket : Nat) (a : Analysis) (r : Rehearsal σ) :
    ∃ log, absorb now [.called ticket a] r =
      if (r.serve r.service a).1.latency = 0 then
        ({ r with service := (r.serve r.service a).2, log }, [],
          some (ticket, (r.serve r.service a).1.reply))
      else
        ({ r with
            service := (r.serve r.service a).2
            log
            call := some (ticket, (r.serve r.service a).1,
              now + Duration.ofMillis (r.serve r.service a).1.latency) },
          [.alarm (now + Duration.ofMillis (r.serve r.service a).1.latency) (.work ticket)],
          none) := by
  refine ⟨{ r.log with calls := r.log.calls ++ [(now / Duration.nanosPerMilli, a)] }, ?_⟩
  unfold absorb
  dsimp only
  split <;> rfl

/-- A call is in progress, or it was answered at once. -/
theorem stepWatch_of_called {ticket : Nat} {a : Analysis} {c : ServiceCall} {service : σ}
    (hf : f r.watch = (w', [.called ticket a])) (hserve : r.serve r.service a = (c, service))
    (now : Duration) :
    (∃ log, stepWatch now f r =
      ({ r with
          watch := w'
          service
          log
          call := some (ticket, c, now + Duration.ofMillis c.latency) },
        [.alarm (now + Duration.ofMillis c.latency) (.work ticket)])) ∨
    ∃ log, stepWatch now f r =
      ({ r with watch := (w'.answered now ticket c.reply).1, service, log },
        (w'.answered now ticket c.reply).2.filterMap Effect.order?) := by
  obtain ⟨log, heq⟩ := absorb_called now ticket a { r with watch := w' }
  dsimp only at heq
  rw [hserve] at heq
  unfold stepWatch
  rw [hf]
  dsimp only
  rw [heq]
  by_cases hlatency : c.latency = 0
  · rw [if_pos hlatency]
    obtain ⟨log', heq'⟩ := absorb_of_noCall (calls_answered now ticket c.reply w') now
      ({ r with watch := (w'.answered now ticket c.reply).1, service, log } : Rehearsal σ)
    refine .inr ⟨log', ?_⟩
    dsimp only
    rw [heq']
    rfl
  · rw [if_neg hlatency]
    exact .inl ⟨log, rfl⟩

/-! ## What a task does -/

/-- Two rehearsals that differ in the documents, and in what is owed, at most. -/
structure SameCourse (r r' : Rehearsal σ) : Prop where
  queue : r'.watch.queue = r.watch.queue
  pursuit : r'.watch.pursuit = r.watch.pursuit
  buckets : r'.watch.buckets = r.watch.buckets
  call : r'.call = r.call

/-- The analysis of a ticket is pursued, and if it has made a call that call is in progress. -/
def IsPursued (r : Rehearsal σ) (ticket : Nat) : Prop :=
  ∃ a p, r.watch.pursuit = some (a, p) ∧ a.bucket < r.watch.buckets.length ∧
    ((r.call = none ∧ ∃ time, p.wakesAt? = some time) ∨
      ∃ c ends, r.call = some (ticket, c, ends) ∧ p.phase = .calling)

/-- When the call in progress ends; there is nothing to wait for if there is none. -/
def due (r : Rehearsal σ) : Duration :=
  match r.call with
  | some (_, _, ends) => ends
  | none => 0

/-- How far the analysis is that is at work, if there is one. -/
def course (r : Rehearsal σ) : ℕ ×ₗ ℕ :=
  match r.watch.pursuit with
  | none => toLex (0, 0)
  | some (a, p) =>
    match r.watch.buckets[a.bucket]? with
    | none => toLex (0, 0)
    | some b => Watch.course b p

namespace SameCourse

variable (h : SameCourse r r')

include h

theorem isAtWork_iff (x : Running) : r'.watch.IsAtWork x ↔ r.watch.IsAtWork x := by
  unfold IsAtWork
  rw [h.queue]

theorem needsTurn_iff : r'.watch.NeedsTurn ↔ r.watch.NeedsTurn := by
  unfold NeedsTurn IsAtWork
  rw [h.queue]

theorem due_eq : r'.due = r.due := by
  unfold due
  rw [h.call]

theorem course_eq : r'.course = r.course := by
  unfold course
  rw [h.pursuit, h.buckets]

end SameCourse

/-- What holds of a rehearsal all along: nothing waits or runs without a worker, and the analysis
that is at work is pursued. -/
structure Fit (r : Rehearsal σ) : Prop where
  distinct : (r.watch.owed.map (·.ticket)).Nodup
  stocked : 0 < r.watch.buckets.length
  sound : ∀ b ∈ r.watch.buckets, b.IsSound
  waiting : ∀ y ∈ r.watch.queue.waiting, y.work.bucket < r.watch.buckets.length
  worked : r.watch.queue.waiting ≠ [] ∨ r.watch.queue.running.isSome = true →
    r.watch.queue.working = true
  pursued : ∀ x, r.watch.IsAtWork x → r.IsPursued x.ticket
  resting : (∀ x, ¬ r.watch.IsAtWork x) → r.call = none ∧ r.watch.pursuit = none

/-- What a task does. -/
inductive Moves (now : Duration) (t : Task) (r r' : Rehearsal σ)
    (orders : List (Agenda.Order Task)) : Prop
  /-- Nothing that has to do with the queue; and what is owed is completed at most. -/
  | still (hsame : SameCourse r r') (horders : orders = [])
      (howed : r'.watch.owed.Sublist r.watch.owed)
      (hdone : ∀ o ∈ r'.watch.owed, o.outcome ≠ none → t ≠ .completion o.ticket)
      (hturn : t = .worker → ¬ r.watch.NeedsTurn)
      (hwork : ∀ x, r.watch.IsAtWork x → t = .work x.ticket → now < r.due)
  /-- It comes too early, and is put off. -/
  | early (time : Duration) (hsame : SameCourse r r') (horders : orders = [.alarm time t])
      (howed : r'.watch.owed = r.watch.owed) (hearly : now < time)
      (htask : (∃ id timer, t = .debounce id timer time) ∨
        ∃ ticket a p, t = .work ticket ∧ r.call = none ∧ r.watch.pursuit = some (a, p) ∧
          p.wakesAt? = some time)
  /-- The analysis that is at work goes on, and is farther than it was.  It waits for an alarm,
  and if it has made a call the alarm rings when the call ends. -/
  | goesOn (x : Running) (hx : r.watch.IsAtWork x) (ht : t = .work x.ticket)
      (hqueue : r'.watch.queue = r.watch.queue) (howed : r'.watch.owed = r.watch.owed)
      (hlength : r'.watch.buckets.length = r.watch.buckets.length)
      (hsound : ∀ b ∈ r'.watch.buckets, b.IsSound) (hpursued : r'.IsPursued x.ticket)
      (hcourse : r'.course < r.course) (time : Duration) (hdue : r'.due ≤ time)
      (horders : orders = [.alarm time t])
  /-- The work of the analysis ends, and the worker has to take it in. -/
  | ends (x : Running) (hx : r.watch.IsAtWork x) (ht : t = .work x.ticket) (reply : Reply)
      (hqueue : r'.watch.queue = r.watch.queue.finish reply)
      (howed : r'.watch.owed = r.watch.owed)
      (hlength : r'.watch.buckets.length = r.watch.buckets.length)
      (hsound : ∀ b ∈ r'.watch.buckets, b.IsSound) (hcall : r'.call = none)
      (hpursuit : r'.watch.pursuit = none) (horders : orders = [.wake .worker])
  /-- The worker takes a turn. -/
  | turns (ht : t = .worker) (hneeds : r.watch.NeedsTurn)
      (settled : List Settled) (started : Option (RequestQueue.Waiting Analysis))
      (hturns : Turns r.watch.queue (r'.watch.queue, settled, started))
      (howed : r'.watch.owed = r.watch.owed.map (Owed.settledBy settled))
      (hbuckets : r'.watch.buckets = r.watch.buckets) (hcall : r'.call = r.call)
      (hpursuit : r'.watch.pursuit = r.watch.pursued started)
      (horders : orders = turnOrders settled started)

theorem calls_ordered (orders : List (Agenda.Order Task)) : calls (orders.map .ordered) = [] := by
  induction orders with
  | nil => rfl
  | cons o r ih => exact ih

theorem filterMap_ordered (orders : List (Agenda.Order Task)) :
    (orders.map Effect.ordered).filterMap Effect.order? = orders := by
  induction orders with
  | nil => rfl
  | cons o r ih => exact congrArg (o :: ·) ih

/-- A step without a call, and orders as its effects. -/
theorem stepWatch_of_ordered (orders : List (Agenda.Order Task))
    (hf : f r.watch = (w', orders.map .ordered)) (now : Duration) :
    ∃ log, stepWatch now f r = ({ r with watch := w', log }, orders) := by
  obtain ⟨log, heq⟩ := stepWatch_of_noCall hf (calls_ordered orders) now
  exact ⟨log, by rw [heq, filterMap_ordered]⟩

theorem runTask_eq {t : Task} (h : ∀ ticket, t = .work ticket → r.call = none) (now : Duration) :
    r.runTask now t = stepWatch now (·.run now t) r := by
  unfold runTask
  split
  · rename_i ticket _ _ _ hcall
    rw [h ticket rfl] at hcall
    cases hcall
  · rfl

theorem quiet_of_isQuiet {w : Watch} (h : w.IsQuiet) (now : Duration) (id : DocumentId)
    (timer : Debouncer.Timer) : w.quiet now id timer = (w, []) := by
  unfold quiet
  cases hd : w.debouncer? id with
  | none => rfl
  | some d =>
    have hnone : d.pending = none := by
      simpa [Debouncer.isPending] using h _ (mem_of_debouncer? hd)
    have hring : d.ring now timer = (none, d) := by
      unfold Debouncer.ring
      rw [hnone]
    dsimp only
    rw [hring]

/-- Nothing happens. -/
theorem moves_nothing {t : Task} (hworker : t = .worker → ¬ r.watch.NeedsTurn)
    (hcompletion : ∀ n, t ≠ .completion n)
    (hwork : ∀ x, r.watch.IsAtWork x → t = .work x.ticket → now < r.due) (log : Log) :
    Moves now t r { r with log } [] :=
  .still ⟨rfl, rfl, rfl, rfl⟩ rfl (.refl _) (fun _ _ _ => hcompletion _) hworker hwork

/-- The watch does nothing. -/
theorem moves_of_run {t : Task} (hrun : r.watch.run now t = (r.watch, []))
    (hcall : ∀ ticket, t = .work ticket → r.call = none)
    (hworker : t = .worker → ¬ r.watch.NeedsTurn) (hcompletion : ∀ n, t ≠ .completion n)
    (hwork : ∀ x, r.watch.IsAtWork x → t = .work x.ticket → now < r.due) :
    Moves now t r (r.runTask now t).1 (r.runTask now t).2 ∧
      (r.runTask now t).1.watch.debouncers = r.watch.debouncers := by
  rw [runTask_eq hcall]
  obtain ⟨log, heq⟩ := stepWatch_of_ordered [] (f := (·.run now t)) hrun now
  rw [heq]
  exact ⟨moves_nothing hworker hcompletion hwork log, rfl⟩

theorem moves_debounce (hquiet : r.watch.IsQuiet) (now : Duration) (id : DocumentId)
    (timer : Debouncer.Timer) (due : Duration) :
    Moves now (.debounce id timer due) r (r.runTask now (.debounce id timer due)).1
      (r.runTask now (.debounce id timer due)).2 ∧
    (r.runTask now (.debounce id timer due)).1.watch.debouncers = r.watch.debouncers := by
  by_cases hearly : now < due
  · have hrun : r.watch.run now (.debounce id timer due) =
        (r.watch, [Agenda.Order.alarm due (Task.debounce id timer due)].map .ordered) :=
      if_pos hearly
    obtain ⟨log, heq⟩ :=
      stepWatch_of_ordered _ (f := (·.run now (.debounce id timer due))) hrun now
    rw [runTask_eq (t := .debounce id timer due) (fun _ h => by cases h), heq]
    exact ⟨.early due ⟨rfl, rfl, rfl, rfl⟩ rfl rfl hearly (.inl ⟨id, timer, rfl⟩), rfl⟩
  · refine moves_of_run ?_ (fun _ h => by cases h) (fun h => by cases h) (fun _ h => by cases h)
      fun _ _ h => by cases h
    exact (if_neg hearly).trans (quiet_of_isQuiet hquiet now id timer)

theorem moves_worker (now : Duration) (r : Rehearsal σ) :
    Moves now .worker r (r.runTask now .worker).1 (r.runTask now .worker).2 ∧
    (r.runTask now .worker).1.watch.debouncers = r.watch.debouncers := by
  cases hworking : r.watch.queue.working with
  | false =>
    refine moves_of_run ?_ (fun _ h => by cases h) (fun _ hneeds => ?_) (fun _ h => by cases h)
      fun _ _ h => by cases h
    · unfold run takeTurn
      simp [hworking]
    · rw [hneeds.1] at hworking
      cases hworking
  | true =>
    rcases hturn : r.watch.queue.turn now with ⟨q, settled, started⟩
    have hrun := takeTurn_of_working hworking hturn
    by_cases hbusy : ∃ x, r.watch.IsAtWork x
    · obtain ⟨x, hx⟩ := hbusy
      rw [turn_of_isAtWork hx] at hturn
      cases hturn
      refine moves_of_run ?_ (fun _ h => by cases h) (fun _ hneeds => hneeds.2 x hx)
        (fun _ h => by cases h) fun _ _ h => by cases h
      rw [map_settledBy_nil] at hrun
      exact hrun
    · push Not at hbusy
      obtain ⟨log, heq⟩ := stepWatch_of_ordered _ (f := (·.run now .worker)) hrun now
      have hturns : Turns r.watch.queue (r.watch.queue.turn now) :=
        turns (fun x hrunning hended => hbusy x ⟨hrunning, hended⟩) now
      rw [hturn] at hturns
      rw [runTask_eq (t := .worker) (fun _ h => by cases h), heq]
      exact ⟨.turns rfl ⟨hworking, hbusy⟩ settled started hturns rfl rfl rfl rfl rfl, rfl⟩

theorem course_of_pursuit {a : Analysis} {p : Pursuit} {b : TokenBucket Float}
    (hpursuit : r.watch.pursuit = some (a, p)) (hbucket : r.watch.buckets[a.bucket]? = some b) :
    r.course = Watch.course b p := by
  unfold course
  rw [hpursuit]
  dsimp only
  rw [hbucket]

/-- What comes of an answer, also of one to a call that was made in the same moment. -/
theorem moves_of_hears {x : Running} {a : Analysis} {p : Pursuit} {b : TokenBucket Float}
    {w : Watch} {y : Watch × List Effect} (hears : Hears now w x a p y)
    (hx : r.watch.IsAtWork x) (hqueue : w.queue = r.watch.queue) (howed : w.owed = r.watch.owed)
    (hlength : w.buckets.length = r.watch.buckets.length) (hsound : ∀ b ∈ w.buckets, b.IsSound)
    (hbucket : w.buckets[a.bucket]? = some b) (hcourse : Watch.course b p ≤ r.course)
    (hwatch : r'.watch = y.1) (hcall : r'.call = none) :
    Moves now (.work x.ticket) r r' (y.2.filterMap Effect.order?) := by
  cases hears with
  | ends reply =>
    refine .ends x hx rfl reply ?_ ?_ ?_ ?_ hcall ?_ rfl
    all_goals rw [hwatch]
    · exact congrArg (RequestQueue.finish reply) hqueue
    · exact howed
    · exact hlength
    · exact hsound
    · rfl
  | rests p' time hwakes hless =>
    have hpursuit : r'.watch.pursuit = some (a, p') := by rw [hwatch]
    have hbuckets : r'.watch.buckets = w.buckets := by rw [hwatch]
    have hbucket' : r'.watch.buckets[a.bucket]? = some b := hbuckets ▸ hbucket
    refine .goesOn x hx rfl ?_ ?_ ?_ ?_ ?_ ?_ time ?_ rfl
    · rw [hwatch]
      exact hqueue
    · rw [hwatch]
      exact howed
    · rw [hbuckets]
      exact hlength
    · rw [hbuckets]
      exact hsound
    · exact ⟨a, p', hpursuit, (List.getElem?_eq_some_iff.mp hbucket').1,
        .inl ⟨hcall, time, hwakes⟩⟩
    · rw [course_of_pursuit hpursuit hbucket']
      exact (hless b).trans_le hcourse
    · unfold due
      rw [hcall]
      exact Nat.zero_le time

/-- A call that is made now. -/
theorem moves_called {x : Running} (hx : r.watch.IsAtWork x) {a : Analysis} {p : Pursuit}
    {b : TokenBucket Float} {f : Watch → Watch × List Effect} {w : Watch}
    (hcall : r.call = none) (hf : f r.watch = (w, [.called x.ticket a]))
    (hqueue : w.queue = r.watch.queue) (howed : w.owed = r.watch.owed)
    (hdebouncers : w.debouncers = r.watch.debouncers)
    (hlength : w.buckets.length = r.watch.buckets.length) (hsound : ∀ b ∈ w.buckets, b.IsSound)
    (hbucket : w.buckets[a.bucket]? = some b) (hpursuit : w.pursuit = some (a, p))
    (hcalling : p.phase = .calling) (hcourse : Watch.course b p < r.course) (now : Duration) :
    Moves now (.work x.ticket) r (stepWatch now f r).1 (stepWatch now f r).2 ∧
      (stepWatch now f r).1.watch.debouncers = r.watch.debouncers := by
  rcases hserve : r.serve r.service a with ⟨c, service⟩
  have hears := Watch.hears (hqueue ▸ hx.1) hpursuit hcalling now c.reply
  rcases stepWatch_of_called hf hserve now with
    ⟨log, heq⟩ | ⟨log, heq⟩
  · rw [heq]
    refine ⟨.goesOn x hx rfl hqueue howed hlength hsound ?_ ?_ _ le_rfl rfl, hdebouncers⟩
    · exact ⟨a, p, hpursuit, (List.getElem?_eq_some_iff.mp hbucket).1,
        .inr ⟨c, _, rfl, hcalling⟩⟩
    · exact (course_of_pursuit hpursuit hbucket).trans_lt hcourse
  · rw [heq]
    exact ⟨moves_of_hears hears hx hqueue howed hlength hsound hbucket hcourse.le rfl hcall,
      hears.debouncers.trans hdebouncers⟩

namespace Fit

variable (h : r.Fit)

include h

theorem moves_completion (now : Duration) (ticket : Nat) :
    Moves now (.completion ticket) r (r.runTask now (.completion ticket)).1
      (r.runTask now (.completion ticket)).2 ∧
    (r.runTask now (.completion ticket)).1.watch.debouncers = r.watch.debouncers := by
  rw [runTask_eq (t := .completion ticket) (fun _ h => nomatch h)]
  obtain ⟨store, refused, owed, fx, hrun, hfewer, hdone, horders⟩ :=
    complete_eq now ticket r.watch h.distinct
  have hcalls : calls fx = [] := by
    rw [← calls_complete now ticket r.watch, hrun]
  obtain ⟨log, heq⟩ := stepWatch_of_noCall (f := (·.run now (.completion ticket))) hrun hcalls now
  rw [heq, horders]
  refine ⟨.still ⟨rfl, rfl, rfl, rfl⟩ rfl hfewer (fun o ho hsome ht => ?_)
    (fun h => nomatch h) (fun _ _ h => by cases h), rfl⟩
  cases ht
  exact hdone o ho hsome rfl

/-- The answer to the call in progress. -/
theorem moves_answered {x : Running} (hx : r.watch.IsAtWork x) {a : Analysis} {p : Pursuit}
    (hpursuit : r.watch.pursuit = some (a, p)) (hbucket : a.bucket < r.watch.buckets.length)
    (hcalling : p.phase = .calling) (now : Duration) (reply : Reply) :
    let s := stepWatch now (·.answered now x.ticket reply) { r with call := none }
    Moves now (.work x.ticket) r s.1 s.2 ∧ s.1.watch.debouncers = r.watch.debouncers := by
  have hears := Watch.hears hx.1 hpursuit hcalling now reply
  obtain ⟨log, heq⟩ := stepWatch_of_noCall (r := { r with call := none })
    (f := (·.answered now x.ticket reply)) rfl (calls_answered now x.ticket reply r.watch) now
  have hget := List.getElem?_eq_getElem hbucket
  dsimp only
  rw [heq]
  refine ⟨moves_of_hears hears hx rfl rfl rfl h.sound hget ?_ rfl rfl, hears.debouncers⟩
  rw [course_of_pursuit hpursuit hget]

/-- The task of a ticket while a call is in progress. -/
theorem moves_work_of_call {x : Running} (hx : r.watch.IsAtWork x) {a : Analysis} {p : Pursuit}
    {c : ServiceCall} {ends : Duration} (hpursuit : r.watch.pursuit = some (a, p))
    (hbucket : a.bucket < r.watch.buckets.length) (hcall : r.call = some (x.ticket, c, ends))
    (hcalling : p.phase = .calling) (now : Duration) (ticket : Nat) :
    Moves now (.work ticket) r (r.runTask now (.work ticket)).1
      (r.runTask now (.work ticket)).2 ∧
    (r.runTask now (.work ticket)).1.watch.debouncers = r.watch.debouncers := by
  unfold runTask
  rw [hcall]
  dsimp only
  by_cases hother : ticket = x.ticket
  · subst hother
    rw [if_neg (fun hne => hne rfl)]
    split
    · exact h.moves_answered hx hpursuit hbucket hcalling now _
    · split
      · exact h.moves_answered hx hpursuit hbucket hcalling now _
      · rename_i hlater
        refine ⟨moves_nothing (fun h => by cases h) (fun _ h => by cases h) (fun y hy hty => ?_)
          r.log, rfl⟩
        unfold due
        rw [hcall]
        exact Nat.lt_of_not_le hlater
  · rw [if_pos hother]
    refine ⟨moves_nothing (fun h => by cases h) (fun _ h => by cases h)
      (fun y hy hty => absurd ?_ hother) r.log, rfl⟩
    obtain rfl := hx.unique hy
    exact Task.work.inj hty

/-- The task of the request that is at work while no call is in progress. -/
theorem moves_work_of_wakes {x : Running} (hx : r.watch.IsAtWork x) {a : Analysis} {p : Pursuit}
    {time : Duration} (hpursuit : r.watch.pursuit = some (a, p))
    (hbucket : a.bucket < r.watch.buckets.length) (hcall : r.call = none)
    (hwakes : p.wakesAt? = some time) (now : Duration) :
    Moves now (.work x.ticket) r (r.runTask now (.work x.ticket)).1
      (r.runTask now (.work x.ticket)).2 ∧
    (r.runTask now (.work x.ticket)).1.watch.debouncers = r.watch.debouncers := by
  have hget := List.getElem?_eq_getElem hbucket
  have hcourse := course_of_pursuit hpursuit hget
  have hsound : ∀ b', b'.IsSound → ∀ b ∈ r.watch.buckets.set a.bucket b', b.IsSound := by
    intro b' hb' b hb
    rcases List.mem_or_eq_of_mem_set hb with hb | rfl
    · exact h.sound b hb
    · exact hb'
  have hset : ∀ b', (r.watch.buckets.set a.bucket b')[a.bucket]? = some b' := fun b' =>
    List.getElem?_set_self hbucket
  have hnext := Watch.wakes hx.1 hpursuit hget (h.sound _ (List.getElem_mem hbucket)) hwakes now
  rw [runTask_eq (t := .work x.ticket) fun _ _ => hcall]
  rcases hrun : r.watch.goOn now x.ticket with ⟨w, fx⟩
  have hf : (fun w => w.run now (.work x.ticket)) r.watch = (w, fx) := hrun
  rw [hrun] at hnext
  cases hnext with
  | ends reply =>
    obtain ⟨log, heq⟩ := stepWatch_of_ordered [.wake .worker] hf now
    rw [heq]
    exact ⟨.ends x hx rfl reply rfl rfl rfl h.sound hcall rfl rfl, rfl⟩
  | early hearly =>
    obtain ⟨log, heq⟩ := stepWatch_of_ordered [.alarm time (.work x.ticket)] hf now
    rw [heq]
    exact ⟨.early time ⟨rfl, rfl, rfl, rfl⟩ rfl rfl hearly
      (.inr ⟨x.ticket, a, p, rfl, hcall, hpursuit, hwakes⟩), rfl⟩
  | calls b' hsound' p' hcalling hless =>
    exact moves_called hx hcall hf rfl rfl rfl List.length_set (hsound b' hsound') (hset b') rfl
      hcalling (hcourse ▸ hless) now
  | sleeps b' hsound' p' next hwakes' hless =>
    obtain ⟨log, heq⟩ := stepWatch_of_ordered [.alarm next (.work x.ticket)] hf now
    rw [heq]
    refine ⟨.goesOn x hx rfl rfl rfl List.length_set (hsound b' hsound') ?_ ?_ next ?_ rfl, rfl⟩
    · exact ⟨a, p', rfl, by simpa using hbucket, .inl ⟨hcall, next, hwakes'⟩⟩
    · rw [hcourse]
      exact (course_of_pursuit rfl (hset b')).trans_lt hless
    · unfold due
      rw [hcall]
      exact Nat.zero_le next

/-- What a task does in a rehearsal that nobody disturbs. -/
theorem moves (hquiet : r.watch.IsQuiet) (now : Duration) (t : Task) :
    Moves now t r (r.runTask now t).1 (r.runTask now t).2 ∧
      (r.runTask now t).1.watch.debouncers = r.watch.debouncers := by
  cases t with
  | debounce id timer due => exact moves_debounce hquiet now id timer due
  | worker => exact moves_worker now r
  | completion ticket => exact h.moves_completion now ticket
  | work ticket =>
    by_cases hbusy : ∃ x, r.watch.IsAtWork x
    · obtain ⟨x, hx⟩ := hbusy
      obtain ⟨a, p, hpursuit, hbucket, ⟨hcall, time, hwakes⟩ | ⟨c, ends, hcall, hcalling⟩⟩ :=
        h.pursued x hx
      · by_cases hticket : x.ticket = ticket
        · subst hticket
          exact h.moves_work_of_wakes hx hpursuit hbucket hcall hwakes now
        · refine moves_of_run ?_ (fun _ _ => hcall) (fun h => by cases h) (fun _ h => by cases h)
            fun y hy hty => absurd ?_ hticket
          · show r.watch.goOn now ticket = _
            unfold goOn
            rw [hx.1, hpursuit]
            exact if_pos (.inl hticket)
          · obtain rfl := hx.unique hy
            exact (Task.work.inj hty).symm
      · exact h.moves_work_of_call hx hpursuit hbucket hcall hcalling now ticket
    · push Not at hbusy
      obtain ⟨hcall, hnone⟩ := h.resting hbusy
      refine moves_of_run ?_ (fun _ _ => hcall) (fun h => by cases h) (fun _ h => by cases h)
        fun y hy _ => absurd hy (hbusy y)
      show r.watch.goOn now ticket = _
      unfold goOn
      rw [hnone]
      split
      · cases ‹none = some _›
      · rfl

theorem of_same (hsame : SameCourse r r') (howed : r'.watch.owed.Sublist r.watch.owed) :
    r'.Fit := by
  refine ⟨h.distinct.sublist (howed.map _), ?_, ?_, ?_, ?_, fun x hx => ?_, fun hnone => ?_⟩
  · rw [hsame.buckets]
    exact h.stocked
  · rw [hsame.buckets]
    exact h.sound
  · rw [hsame.queue, hsame.buckets]
    exact h.waiting
  · rw [hsame.queue]
    exact h.worked
  · have hpursued := h.pursued x ((hsame.isAtWork_iff x).mp hx)
    unfold IsPursued at hpursued ⊢
    rw [hsame.pursuit, hsame.buckets, hsame.call]
    exact hpursued
  · rw [hsame.call, hsame.pursuit]
    exact h.resting fun x hx => hnone x ((hsame.isAtWork_iff x).mpr hx)

/-- After a turn of the worker. -/
theorem of_turns (hneeds : r.watch.NeedsTurn) {settled : List Settled}
    {started : Option (RequestQueue.Waiting Analysis)}
    (hturns : Turns r.watch.queue (r'.watch.queue, settled, started))
    (howed : r'.watch.owed = r.watch.owed.map (Owed.settledBy settled))
    (hbuckets : r'.watch.buckets = r.watch.buckets) (hcall : r'.call = r.call)
    (hpursuit : r'.watch.pursuit = r.watch.pursued started) : r'.Fit := by
  obtain ⟨hnocall, hnone⟩ := h.resting hneeds.2
  have hstocked : 0 < r'.watch.buckets.length := hbuckets ▸ h.stocked
  have hsound : ∀ b ∈ r'.watch.buckets, b.IsSound := hbuckets ▸ h.sound
  have hdistinct : (r'.watch.owed.map (·.ticket)).Nodup := by
    have hsame : r'.watch.owed.map (·.ticket) = r.watch.owed.map (·.ticket) := by
      rw [howed, List.map_map]
      exact List.map_congr_left fun o _ => settledBy_ticket settled o
    rw [hsame]
    exact h.distinct
  generalize hq : r'.watch.queue = q at hturns
  cases hturns with
  | rests settled _ =>
    refine ⟨hdistinct, hstocked, hsound, ?_, ?_, fun x hx => ?_, fun _ => ?_⟩
    · rw [hq]
      exact fun y hy => absurd hy List.not_mem_nil
    · rw [hq]
      rintro (hwaits | hruns)
      · exact absurd rfl hwaits
      · cases hruns
    · have hrunning := hx.1
      rw [hq] at hrunning
      cases hrunning
    · exact ⟨hcall.trans hnocall, hpursuit.trans hnone⟩
  | starts settled y rest hy hrest _ =>
    have hrunning : r'.watch.queue.running = some { ticket := y.ticket, key := y.key } := by rw [hq]
    refine ⟨hdistinct, hstocked, hsound, ?_, fun _ => ?_, fun x hx => ?_, fun hidle => ?_⟩
    · rw [hq, hbuckets]
      exact fun z hz => h.waiting z (hrest z hz)
    · rw [hq]
      exact hneeds.1
    · obtain rfl := Option.some.inj (hrunning.symm.trans hx.1)
      refine ⟨y.work, .ofPolicy y.work.policy, hpursuit, ?_, .inl ⟨hcall.trans hnocall, 0, rfl⟩⟩
      rw [hbuckets]
      exact h.waiting y hy
    · exact absurd ⟨hrunning, rfl⟩ (hidle _)

/-- A rehearsal that nobody disturbs stays like that. -/
theorem of_moves {t : Task} {orders : List (Agenda.Order Task)} (hmoves : Moves now t r r' orders) :
    r'.Fit := by
  cases hmoves with
  | still hsame _ howed _ _ _ => exact h.of_same hsame howed
  | early time hsame _ howed _ _ => exact h.of_same hsame (howed ▸ .refl _)
  | goesOn x hx _ hqueue howed hlength hsound hpursued _ _ _ _ =>
    refine ⟨howed ▸ h.distinct, hlength ▸ h.stocked, hsound, ?_, ?_, fun y hy => ?_,
      fun hnone => ?_⟩
    · rw [hqueue, hlength]
      exact h.waiting
    · rw [hqueue]
      exact h.worked
    · obtain rfl := hx.unique ⟨hqueue ▸ hy.1, hy.2⟩
      exact hpursued
    · exact absurd ⟨hqueue ▸ hx.1, hx.2⟩ (hnone x)
  | ends x hx _ reply hqueue howed hlength hsound hcall hpursuit _ =>
    refine ⟨howed ▸ h.distinct, hlength ▸ h.stocked, hsound, ?_, ?_, fun y hy => ?_,
      fun _ => ⟨hcall, hpursuit⟩⟩
    · rw [hqueue, hlength]
      exact h.waiting
    · rw [hqueue]
      exact fun _ => h.worked (.inr (by rw [hx.1]; rfl))
    · exact absurd hy (not_isAtWork_of_finish hx hqueue y)
  | turns _ hneeds settled started hturns howed hbuckets hcall hpursuit _ =>
    exact h.of_turns hneeds hturns howed hbuckets hcall hpursuit

end Fit

end Rehearsal

end SmellWatch
