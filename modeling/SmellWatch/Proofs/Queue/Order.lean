import SmellWatch.Proofs.Queue.Passage
/-! One request at a time, in the order in which they came.

Works start and end by turns: what has been done is a list of requests, each of which
started and then ended, and perhaps one more that has started (`InTurn`).  Those that
were started and those that wait stand in the order in which all requests came.  So this
holds of a whole run what `Guarded` says of a queue at one time: those that wait are about
different documents, and nothing waits or runs without a worker.
`one_at_a_time_in_order` puts both together. -/

namespace SmellWatch

namespace RequestQueue

variable {α β ε : Type} {q : RequestQueue α β ε} {now : Duration}

/-! ## The queue at one time -/

/-- Those that wait are about different documents, and nothing waits or runs without a
worker. -/
structure Guarded (q : RequestQueue α β ε) : Prop where
  keys : (q.waiting.map (·.key)).Nodup
  worked : q.waiting ≠ [] ∨ q.running.isSome = true → q.working = true

/-- A queue in which no more waits or runs than before. -/
theorem Guarded.of_less {q' : RequestQueue α β ε} (h : q.Guarded)
    (hkeys : (q'.waiting.map (·.key)).Sublist (q.waiting.map (·.key)))
    (hrunning : q'.running.isSome = true → q.running.isSome = true)
    (hworking : q'.working = q.working) : q'.Guarded where
  keys := h.keys.sublist hkeys
  worked := by
    intro hbusy
    rw [hworking]
    apply h.worked
    rcases hbusy with hwaits | hruns
    · left
      intro hnone
      rw [hnone, List.map_nil, List.sublist_nil, List.map_eq_nil_iff] at hkeys
      exact hwaits hkeys
    · exact .inr (hrunning hruns)

theorem guarded_enqueue (h : q.Guarded) (key : DocumentId) (work : α) :
    (q.enqueue now key work).queue.Guarded where
  keys := by
    rw [enqueue_queue]
    simp only [push, evict, List.map_append, List.map_cons, List.map_nil]
    rw [List.nodup_append]
    refine ⟨h.keys.sublist (List.filter_sublist.map _), List.nodup_singleton _, ?_⟩
    -- a request for the same document does not stay
    intro k hk k' hk' hsame
    obtain ⟨w, hw, rfl⟩ := List.mem_map.mp hk
    obtain ⟨-, hstays⟩ := List.mem_filter.mp hw
    rw [List.mem_singleton.mp hk'] at hsame
    simp [eviction?, hsame] at hstays
  worked := fun _ => rfl

theorem guarded_startNext (h : q.Guarded) (hidle : q.running = none) :
    (q.startNext now).1.Guarded := by
  cases startsNext now q with
  | rests hpassed heq =>
    rw [heq]
    exact ⟨List.nodup_nil, by simp [hidle]⟩
  | finds passed w rest hsplit hpassed hheeded hyoung heq =>
    rw [heq]
    have hkeys := h.keys
    rw [hsplit, List.map_append, List.map_cons] at hkeys
    constructor
    · exact (List.nodup_cons.mp (List.nodup_append.mp hkeys).2.1).2
    · intro _
      apply h.worked
      left
      simp [hsplit]

theorem guarded_perform (h : q.Guarded) (now : Duration) (d : Deed α β ε) :
    (perform now q d).1.Guarded := by
  cases d with
  | enqueue key work => exact guarded_enqueue h key work
  | drop ticket =>
    refine h.of_less ?_ ?_ rfl
    · have hsame := congrArg (List.map Request.key) (waiting_abandon ticket q)
      rw [List.map_map, List.map_map] at hsame
      exact (congrArg (List.Sublist · _) hsame).mpr (.refl _)
    · simp [perform, abandon]
  | setMaxAge age => exact h.of_less (.refl _) id rfl
  | cancel wanted =>
    refine h.of_less ?_ ?_ rfl
    · exact List.filter_sublist.map _
    · simp [perform, cancelWhere]
  | endWork e =>
    simp only [perform]
    split
    · exact h.of_less (.refl _) (by simp [finish]) rfl
    · exact h
  | reap =>
    simp only [perform, reap]
    split
    · exact h
    · split
      · exact h
      · exact h.of_less (.refl _) (by simp) rfl
  | start =>
    simp only [perform]
    split
    · exact h
    · rename_i hidle
      exact guarded_startNext h (by simpa using hidle)
  | wait time => exact h

theorem Run.guarded (r : Run α β ε) : r.queue.Guarded := by
  induction r with
  | start maxAge => exact ⟨List.nodup_nil, by simp [queue]⟩
  | next r d ih => exact guarded_perform ih r.now d

/-! ## A whole run -/

/-- Marks on the request that runs do not change whether its work goes on. -/
theorem atWork?_of_map {q' : RequestQueue α β ε} {f : Running β ε → Running β ε}
    (hrunning : q'.running = q.running.map f)
    (hf : ∀ x, (f x).ticket = x.ticket ∧ (f x).ended = x.ended) : q'.atWork? = q.atWork? := by
  unfold atWork?
  rw [hrunning]
  cases q.running with
  | none => rfl
  | some x =>
    obtain ⟨hticket, hended⟩ := hf x
    cases he : x.ended <;> simp [Option.filter, hticket, hended, he]

/-- What is heard of the works of a queue. -/
inductive Labor (α β ε : Type)
  | starts (x : Request α)
  | ends (ticket : Nat) (e : WorkEnd β ε)

namespace Run

variable {r : Run α β ε} {d : Deed α β ε}

/-- The starts and the ends of works, in the order in which they happened. -/
def labor (r : Run α β ε) : List (Labor α β ε) :=
  r.steps.flatMap fun x =>
    (x.1.starting? x.2).toList.map .starts ++ (x.1.ending? x.2).toList.map fun y => .ends y.1 y.2

@[simp] theorem labor_next (r : Run α β ε) (d : Deed α β ε) :
    (r.next d).labor = r.labor ++ ((r.starting? d).toList.map .starts ++
      (r.ending? d).toList.map fun y => .ends y.1 y.2) := by
  simp [labor, steps]

/-- A request whose work started and then ended. -/
def whole (x : Request α × WorkEnd β ε) : List (Labor α β ε) :=
  [.starts x.1, .ends x.1.ticket x.2]

/-- The works of `done` started and ended, one after the other, then that of `current` started,
if there is one, and goes on.  Those and the ones that wait stand in the order in which
they came. -/
structure InTurn (r : Run α β ε) (done : List (Request α × WorkEnd β ε))
    (current : Option (Request α)) : Prop where
  labor : r.labor = done.flatMap whole ++ current.toList.map .starts
  line : (done.map (·.1) ++ current.toList ++ r.queue.waiting.map Waiting.request).Sublist
    r.requests
  atWork : r.queue.atWork? = current.map (·.ticket)

variable {done : List (Request α × WorkEnd β ε)} {current : Option (Request α)}

/-- A deed by which nothing comes, starts or ends. -/
theorem InTurn.of_less (h : r.InTurn done current) (hcoming : r.coming? d = none)
    (hstarting : r.starting? d = none) (hending : r.ending? d = none)
    (hwaiting : ((r.next d).queue.waiting.map Waiting.request).Sublist
      (r.queue.waiting.map Waiting.request))
    (hatWork : (r.next d).queue.atWork? = r.queue.atWork?) : (r.next d).InTurn done current where
  labor := by simp [h.labor, hstarting, hending]
  line := by
    simp only [requests_next, hcoming, Option.toList_none, List.append_nil]
    exact (List.Sublist.append_left hwaiting _).trans h.line
  atWork := hatWork.trans h.atWork

theorem inTurn_enqueue (h : r.InTurn done current) (key : DocumentId) (work : α) :
    (r.next (.enqueue key work)).InTurn done current where
  labor := by simp [h.labor, starting?, ending?, perform]
  line := by
    have hwaiting : (r.next (.enqueue key work)).queue.waiting.map Waiting.request =
        (r.queue.evict (r.queue.eviction? r.now key)).waiting.map Waiting.request ++
          [⟨r.queue.nextTicket, key, work, r.now⟩] := by
      simp [queue, perform, enqueue_queue, push, Waiting.request]
    rw [hwaiting, requests_next, ← List.append_assoc]
    refine List.Sublist.append ?_ (.refl _)
    exact (List.Sublist.append_left (List.filter_sublist.map _) _).trans h.line
  atWork := h.atWork

theorem inTurn_endWork (h : r.InTurn done current) (e : WorkEnd β ε) :
    ∃ done' current', (r.next (.endWork e)).InTurn done' current' := by
  cases hat : r.queue.atWork? with
  | none =>
    refine ⟨done, current, h.of_less rfl rfl ?_ ?_ ?_⟩
    · simp [ending?, hat]
    · simp [queue, perform, hat]
    · simp [queue, perform, hat]
  | some t =>
    obtain ⟨x, rfl, rfl⟩ := Option.map_eq_some_iff.mp (h.atWork.symm.trans hat)
    have hqueue : (r.next (.endWork e)).queue = r.queue.finish e := by
      simp [queue, perform, hat]
    refine ⟨done ++ [(x, e)], none, ?_, ?_, ?_⟩
    · simp [h.labor, starting?, perform, ending?, hat, whole]
    · have hline := h.line
      rw [hqueue, requests_next]
      simpa [coming?, finish] using hline
    · rw [hqueue]
      cases hrun : r.queue.running <;> simp [atWork?, finish, hrun]

theorem inTurn_start (h : r.InTurn done current) :
    ∃ done' current', (r.next .start).InTurn done' current' := by
  cases hrun : r.queue.running with
  | some x =>
    have hsame : perform r.now r.queue .start = (r.queue, [], none) := by simp [perform, hrun]
    refine ⟨done, current, h.of_less rfl ?_ rfl ?_ ?_⟩
    · simp [starting?, hsame]
    · simp [queue, hsame]
    · simp [queue, hsame]
  | none =>
    have hat : r.queue.atWork? = none := by simp [atWork?, hrun]
    have hcurrent : current = none := Option.map_eq_none_iff.mp (h.atWork.symm.trans hat)
    subst hcurrent
    have hstart : perform r.now r.queue .start = r.queue.startNext r.now := by
      simp [perform, hrun]
    cases startsNext r.now r.queue with
    | rests hpassed heq =>
      rw [heq] at hstart
      refine ⟨done, none, h.of_less rfl ?_ rfl ?_ ?_⟩
      · simp [starting?, hstart]
      · simp [queue, hstart]
      · simp [queue, hstart, atWork?]
    | finds passed w rest hsplit hpassed hheeded hyoung heq =>
      rw [heq] at hstart
      refine ⟨done, some w.request, ?_, ?_, ?_⟩
      · simp [h.labor, starting?, ending?, hstart]
      · have hline := h.line
        simp only [hsplit, Option.toList_none, List.append_nil, List.map_append,
          List.map_cons] at hline
        simp only [queue, hstart, requests_next, coming?, Option.toList_none, Option.toList_some,
          List.append_nil, List.append_assoc, List.singleton_append]
        -- those that were passed over drop out
        exact (List.Sublist.append_left (List.sublist_append_right _ _) _).trans hline
      · simp [queue, hstart, atWork?, Waiting.request]

theorem inTurn_next (h : r.InTurn done current) (d : Deed α β ε) :
    ∃ done' current', (r.next d).InTurn done' current' := by
  cases d with
  | enqueue key work => exact ⟨done, current, inTurn_enqueue h key work⟩
  | endWork e => exact inTurn_endWork h e
  | start => exact inTurn_start h
  | drop ticket =>
    refine ⟨done, current, h.of_less rfl rfl rfl ?_ ?_⟩
    · simp only [queue, perform, waiting_abandon]
      exact .refl _
    · refine atWork?_of_map rfl ?_
      intro x
      split <;> exact ⟨rfl, rfl⟩
  | setMaxAge age => exact ⟨done, current, h.of_less rfl rfl rfl (.refl _) rfl⟩
  | cancel wanted =>
    refine ⟨done, current, h.of_less rfl rfl rfl ?_ ?_⟩
    · exact List.filter_sublist.map _
    · refine atWork?_of_map rfl ?_
      intro x
      split <;> exact ⟨rfl, rfl⟩
  | reap =>
    refine ⟨done, current, h.of_less rfl rfl rfl ?_ ?_⟩
    · simp only [queue, perform, reap_waiting]
      exact .refl _
    · simp only [queue, perform, reap, atWork?]
      cases hrun : r.queue.running with
      | none => simp [hrun]
      | some x => cases he : x.ended <;> simp [hrun, he, Option.filter]
  | wait time => exact ⟨done, current, h.of_less rfl rfl rfl (.refl _) rfl⟩

theorem inTurn (r : Run α β ε) : ∃ done current, r.InTurn done current := by
  induction r with
  | start maxAge => exact ⟨[], none, rfl, .refl _, rfl⟩
  | next r d ih =>
    obtain ⟨done, current, h⟩ := ih
    exact inTurn_next h d

/-- Requests are numbered as they come. -/
theorem tickets_requests (r : Run α β ε) :
    r.requests.map (·.ticket) = List.range r.queue.nextTicket := by
  induction r with
  | start maxAge => rfl
  | next r d ih =>
    rw [requests_next, List.map_append, ih]
    cases d with
    | enqueue key work => exact List.range_succ.symm
    | endWork e =>
      simp only [coming?, queue, perform]
      split <;> simp [finish]
    | reap =>
      simp only [coming?, queue, perform, reap]
      split
      · simp
      · split <;> simp
    | start =>
      simp only [coming?, queue, perform]
      split
      · simp
      · cases startsNext r.now r.queue with
        | rests hpassed heq => simp [heq]
        | finds passed w rest hsplit hpassed hheeded hyoung heq => simp [heq]
    | drop ticket => simp [coming?, queue, perform, abandon]
    | setMaxAge age => simp [coming?, queue, perform, setMaxAge]
    | cancel wanted => simp [coming?, queue, perform, cancelWhere]
    | wait time => simp [coming?, queue, perform]

/-- What waits came in the run. -/
theorem request_mem_requests {w : Waiting α} (hw : w ∈ r.queue.waiting) :
    w.request ∈ r.requests := by
  obtain ⟨done, current, h⟩ := r.inTurn
  apply h.line.subset
  exact List.mem_append_right _ (List.mem_map_of_mem hw)

/-- At each time, those that wait are about different documents and stand in the order in
which they came, and nothing waits or runs without a worker.  Over each run, works start
in the order in which their requests came, and each only after the one before it has ended,
however it ended; so no more than one has started and not ended. -/
theorem one_at_a_time_in_order (r : Run α β ε) :
    (r.queue.waiting.map (·.key)).Nodup ∧
      (r.queue.waiting.map Waiting.request).Sublist r.requests ∧
      r.requests.map (·.ticket) = List.range r.queue.nextTicket ∧
      (r.queue.waiting ≠ [] ∨ r.queue.running.isSome = true → r.queue.working = true) ∧
      ∃ (done : List (Request α × WorkEnd β ε)) (current : Option (Request α)),
        r.labor = (done.flatMap fun x => [.starts x.1, .ends x.1.ticket x.2]) ++
          current.toList.map .starts ∧
        (done.map (·.1) ++ current.toList).Sublist r.requests ∧
        r.queue.atWork? = current.map (·.ticket) := by
  obtain ⟨done, current, h⟩ := r.inTurn
  have hguarded := r.guarded
  refine ⟨hguarded.keys, ?_, r.tickets_requests, hguarded.worked, done, current, h.labor, ?_,
    h.atWork⟩
  · exact (List.sublist_append_right _ _).trans h.line
  · exact (List.sublist_append_left _ _).trans h.line

end Run

end RequestQueue

end SmellWatch
