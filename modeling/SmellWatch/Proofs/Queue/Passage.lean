import SmellWatch.Proofs.Queue.Run
/-! What a deed does to one request.

The requests of a queue stand in the order in which they came throughout (`inLine`).  So
a ticket is in one place: it was not given out yet, its request waits, or runs, or is gone.
`passage` says, for each deed and each ticket, from which place to which it goes and what
is seen of it on the way.  No later proof looks into the operations of the queue. -/

namespace SmellWatch

namespace RequestQueue

variable {α β ε : Type} {q q' : RequestQueue α β ε} {now : Duration} {t : Nat}

/-! ## The line -/

theorem waiting_abandon (t : Nat) (q : RequestQueue α β ε) :
    (q.abandon t).waiting.map Waiting.request = q.waiting.map Waiting.request := by
  unfold abandon
  rw [List.map_map]
  apply List.map_congr_left
  intro w _
  simp only [Function.comp_apply]
  split <;> rfl

theorem tickets_abandon (t : Nat) (q : RequestQueue α β ε) :
    (q.abandon t).tickets = q.tickets := by
  have hwaiting := congrArg (List.map Request.ticket) (waiting_abandon t q)
  rw [List.map_map, List.map_map] at hwaiting
  have hrunning : (q.abandon t).running.map (·.ticket) = q.running.map (·.ticket) := by
    unfold abandon
    cases q.running with
    | none => rfl
    | some x => by_cases hx : x.ticket = t <;> simp [hx]
  unfold tickets
  rw [hrunning]
  exact congrArg _ hwaiting

theorem tickets_evict (reason : Waiting α → Option (QueueError ε)) (q : RequestQueue α β ε) :
    (q.evict reason).tickets.Sublist q.tickets :=
  List.Sublist.append_left (List.filter_sublist.map _) _

theorem tickets_reap (q : RequestQueue α β ε) : q.reap.1.tickets.Sublist q.tickets := by
  unfold reap
  split
  · exact .refl _
  · split
    · exact .refl _
    · exact List.sublist_append_right _ _

/-- What waits is what the search for the next request passes over, and what it finds with
those behind; so it is known where each is afterwards. -/
inductive StartsNext (now : Duration) (q : RequestQueue α β ε) : Prop
  /-- All that wait are passed over. -/
  | rests (hpassed : ∀ x ∈ q.waiting, x.abandoned = true ∨ q.isTooOld now x = true)
      (heq : q.startNext now = ({ q with waiting := [], working := false },
        q.waiting.filterMap (reject .timedOut), none))
  /-- The next request is found behind those that are passed over. -/
  | finds (passed : List (Waiting α)) (w : Waiting α) (rest : List (Waiting α))
      (hsplit : q.waiting = passed ++ w :: rest)
      (hpassed : ∀ x ∈ passed, x.abandoned = true ∨ q.isTooOld now x = true)
      (hheeded : w.abandoned = false) (hyoung : q.isTooOld now w = false)
      (heq : q.startNext now =
        ({ q with waiting := rest, running := some { ticket := w.ticket, key := w.key } },
          passed.filterMap (reject .timedOut), some w))

theorem startsNext (now : Duration) (q : RequestQueue α β ε) : StartsNext now q := by
  obtain ⟨passed, hsettled, hpassed, hfound, hsplit⟩ := firstRunnable_splits q now q.waiting
  rcases hf : q.firstRunnable now q.waiting with ⟨settled, found⟩
  rw [hf] at hsettled hfound hsplit
  subst hsettled
  cases found with
  | none =>
    have hall : q.waiting = passed := by simpa using hsplit
    refine .rests (hall ▸ hpassed) ?_
    unfold startNext
    rw [hf, hall]
  | some p =>
    obtain ⟨hheeded, hyoung⟩ := hfound p rfl
    refine .finds passed p.1 p.2 hsplit hpassed hheeded hyoung ?_
    unfold startNext
    rw [hf]

theorem inLine_startNext (h : q.InLine) (hidle : q.running = none) (now : Duration) :
    (q.startNext now).1.InLine := by
  cases startsNext now q with
  | rests hpassed heq =>
    rw [heq]
    refine h.of_sublist ?_ rfl
    simp [tickets, hidle]
  | finds passed w rest hsplit hpassed hheeded hyoung heq =>
    rw [heq]
    refine h.of_sublist ?_ rfl
    simp [tickets, hidle, hsplit]

theorem inLine_perform (h : q.InLine) (now : Duration) (d : Deed α β ε) :
    (perform now q d).1.InLine := by
  cases d with
  | enqueue key work =>
    simp only [perform, enqueue_queue]
    exact (h.of_sublist (tickets_evict _ q) rfl).push rfl
  | drop ticket =>
    refine h.of_sublist ?_ rfl
    simp only [perform, tickets_abandon]
    exact .refl _
  | setMaxAge age => exact h.of_sublist (.refl _) rfl
  | cancel wanted =>
    refine h.of_sublist ?_ rfl
    simp only [perform, cancelWhere_tickets]
    exact tickets_evict _ q
  | endWork e =>
    simp only [perform]
    split
    · refine h.of_sublist ?_ rfl
      rw [finish_tickets]
    · exact h
  | reap =>
    refine h.of_sublist (tickets_reap q) ?_
    simp only [perform, reap]
    split
    · rfl
    · split <;> rfl
  | start =>
    simp only [perform]
    split
    · exact h
    · rename_i hidle
      exact inLine_startNext h (by simpa using hidle) now
  | wait time => exact h

theorem Run.inLine (r : Run α β ε) : r.queue.InLine := by
  induction r with
  | start maxAge => exact ⟨List.Pairwise.nil, by simp [queue, tickets]⟩
  | next r d ih => exact inLine_perform ih r.now d

/-! ## From place to place -/

/-- Why a request goes without having started. -/
inductive Reason (now : Duration) (d : Deed α β ε) (q : RequestQueue α β ε) (w : Waiting α) :
    QueueError ε → Prop
  /-- A newer request for the same document comes. -/
  | superseded (work : α) (hd : d = .enqueue w.key work) : Reason now d q w .superseded
  /-- It has waited too long. -/
  | timedOut (hold : q.isTooOld now w = true) : Reason now d q w .timedOut
  /-- It is canceled. -/
  | canceled (wanted : DocumentId → Bool) (hd : d = .cancel wanted) : Reason now d q w .canceled
  /-- Nobody waits for it. -/
  | unheard (habandoned : w.abandoned = true) : Reason now d q w .canceled

theorem Reason.isSilent {d : Deed α β ε} {w : Waiting α} {e : QueueError ε}
    (h : Reason now d q w e) : e.isSilent = true := by
  cases h <;> rfl

/-- The way of a ticket through a deed, and what is seen of it. -/
inductive Passage (now : Duration) (d : Deed α β ε) (q q' : RequestQueue α β ε) (t : Nat) :
    Tale α β ε → Prop
  /-- It stays where it is. -/
  | apart (hwaits : ∀ w, w.ticket = t → (w ∈ q'.waiting ↔ w ∈ q.waiting))
      (hruns : ∀ x, x.ticket = t → (q'.running = some x ↔ q.running = some x))
      (hissued : t < q'.nextTicket ↔ t < q.nextTicket) : Passage now d q q' t {}
  /-- Its request comes. -/
  | came (w : Waiting α) (hw : w ∈ q'.waiting) (ht : w.ticket = t) (hheeded : w.abandoned = false)
      (hnew : t = q.nextTicket) : Passage now d q q' t {}
  /-- It is dropped while its request waits. -/
  | droppedWaiting (w : Waiting α) (hw : w ∈ q.waiting) (ht : w.ticket = t)
      (hw' : { w with abandoned := true } ∈ q'.waiting) :
      Passage now d q q' t { dropped := true }
  /-- It is dropped while its request runs. -/
  | droppedRunning (x : Running β ε) (hx : q.running = some x) (ht : x.ticket = t)
      (hx' : q'.running = some { x with abandoned := true }) :
      Passage now d q q' t { dropped := true }
  /-- It is dropped when its request is gone. -/
  | droppedGone (hgone : t ∉ q.tickets) (hgone' : t ∉ q'.tickets) (hissued : t < q.nextTicket)
      (hissued' : t < q'.nextTicket) : Passage now d q q' t { dropped := true }
  /-- Its request goes without having started. -/
  | left (w : Waiting α) (e : QueueError ε) (canceled : Bool) (hw : w ∈ q.waiting)
      (ht : w.ticket = t) (hreason : Reason now d q w e) (hgone : t ∉ q'.tickets)
      (hissued : t < q'.nextTicket) :
      Passage now d q q' t
        { results := if w.abandoned then [] else [.error e], canceled := canceled }
  /-- Its request starts. -/
  | started (w : Waiting α) (hw : w ∈ q.waiting) (ht : w.ticket = t)
      (hheeded : w.abandoned = false) (hyoung : q.isTooOld now w = false)
      (hx : q'.running = some { ticket := w.ticket, key := w.key }) :
      Passage now d q q' t { starts := [w.request] }
  /-- Its request, which runs, is told to stop. -/
  | told (x : Running β ε) (hx : q.running = some x) (ht : x.ticket = t)
      (hx' : q'.running = some { x with canceled := true }) :
      Passage now d q q' t { canceled := true }
  /-- Its work ends. -/
  | ended (x : Running β ε) (e : WorkEnd β ε) (hx : q.running = some x) (ht : x.ticket = t)
      (hgoes : x.ended = none) (hx' : q'.running = some { x with ended := some e }) :
      Passage now d q q' t { ends := [e] }
  /-- Its request, whose work has ended, is settled. -/
  | reaped (x : Running β ε) (e : WorkEnd β ε) (hx : q.running = some x) (ht : x.ticket = t)
      (hended : x.ended = some e) (hgone : t ∉ q'.tickets) (hissued : t < q'.nextTicket) :
      Passage now d q q' t { results := if x.abandoned then [] else [x.result e] }

/-! ## What is settled of one ticket -/

/-- What is told of those in a list that go, of one that is not among them. -/
theorem filter_filterMap_of_forall_ne {l : List (Waiting α)}
    {f : Waiting α → Option (Settled β ε)} (hf : ∀ w s, f w = some s → s.ticket = w.ticket)
    (h : ∀ w ∈ l, w.ticket ≠ t) : (l.filterMap f).filter (·.ticket = t) = [] := by
  rw [List.filter_eq_nil_iff]
  intro s hs
  obtain ⟨w, hw, hfw⟩ := List.mem_filterMap.mp hs
  have := h w hw
  simpa [hf w s hfw] using this

/-- What is told of those in a list that go, of one that is among them. -/
theorem filter_filterMap_of_mem {l : List (Waiting α)} {f : Waiting α → Option (Settled β ε)}
    (hf : ∀ w s, f w = some s → s.ticket = w.ticket)
    (hl : (l.map (·.ticket)).Pairwise (· < ·)) {w : Waiting α} (hw : w ∈ l) :
    (l.filterMap f).filter (·.ticket = w.ticket) = (f w).toList := by
  induction l with
  | nil => cases hw
  | cons x r ih =>
    obtain ⟨hx, hr⟩ := List.pairwise_cons.mp hl
    rw [← List.singleton_append, List.filterMap_append, List.filter_append]
    rcases List.mem_cons.mp hw with rfl | hw
    · have hrest : (r.filterMap f).filter (·.ticket = w.ticket) = [] := by
        apply filter_filterMap_of_forall_ne hf
        intro y hy
        exact Nat.ne_of_gt (hx y.ticket (List.mem_map_of_mem hy))
      rw [hrest, List.append_nil]
      cases hfw : f w with
      | none => simp [hfw]
      | some s => simp [hfw, hf w s hfw]
    · have hfirst : ([x].filterMap f).filter (·.ticket = w.ticket) = [] := by
        apply filter_filterMap_of_forall_ne hf
        intro y hy
        rw [List.mem_singleton.mp hy]
        exact Nat.ne_of_lt (hx w.ticket (List.mem_map_of_mem hw))
      rw [hfirst, ih hr hw, List.nil_append]

theorem ticket_of_reject {e : QueueError ε} {w : Waiting α} {s : Settled β ε}
    (h : reject e w = some s) : s.ticket = w.ticket := by
  unfold reject at h
  split at h
  · cases h
  · cases h
    rfl

theorem results_of_reject (e : QueueError ε) (w : Waiting α) :
    (reject e w : Option (Settled β ε)).toList.map (·.result) =
      if w.abandoned then [] else [.error e] := by
  unfold reject
  split <;> rfl

theorem ticket_of_eviction {reason : Waiting α → Option (QueueError ε)} (w : Waiting α)
    (s : Settled β ε) (h : (reason w).bind (reject · w) = some s) : s.ticket = w.ticket := by
  obtain ⟨e, -, he⟩ := Option.bind_eq_some_iff.mp h
  exact ticket_of_reject he

/-! ## The way through each deed -/

namespace InLine

theorem waiting_sorted (h : q.InLine) : (q.waiting.map (·.ticket)).Pairwise (· < ·) :=
  (List.pairwise_append.mp h.sorted).2.1

theorem lt_of_waiting (h : q.InLine) {w : Waiting α} (hw : w ∈ q.waiting) :
    w.ticket < q.nextTicket :=
  h.issued _ (mem_tickets.mpr (.inr ⟨w, hw, rfl⟩))

theorem lt_of_running (h : q.InLine) {x : Running β ε} (hx : q.running = some x) :
    x.ticket < q.nextTicket :=
  h.issued _ (mem_tickets.mpr (.inl ⟨x, hx, rfl⟩))

end InLine

/-- What goes by an eviction is not in the queue any more. -/
theorem not_mem_tickets_evict (h : q.InLine) {reason : Waiting α → Option (QueueError ε)}
    {w : Waiting α} {e : QueueError ε} (hw : w ∈ q.waiting) (he : reason w = some e) :
    w.ticket ∉ (q.evict reason).tickets := by
  intro hin
  rcases mem_tickets.mp hin with ⟨x, hx, hxw⟩ | ⟨y, hy, hyw⟩
  · have := h.running_lt_waiting hx hw
    omega
  · obtain ⟨hyq, hkept⟩ := List.mem_filter.mp hy
    rw [h.waiting_inj hyq hw hyw, he] at hkept
    cases hkept

/-- What has no reason to go stays. -/
theorem mem_evict_iff {reason : Waiting α → Option (QueueError ε)}
    (hstays : ∀ w ∈ q.waiting, w.ticket = t → reason w = none) (w : Waiting α)
    (hw : w.ticket = t) : w ∈ (q.evict reason).waiting ↔ w ∈ q.waiting := by
  unfold evict
  rw [List.mem_filter]
  constructor
  · exact fun hin => hin.1
  · intro hin
    exact ⟨hin, by rw [hstays w hin hw]; rfl⟩

/-- What is told of a ticket in an eviction. -/
theorem results_evicted_of_mem (h : q.InLine) (reason : Waiting α → Option (QueueError ε))
    {w : Waiting α} (hw : w ∈ q.waiting) :
    ((q.evicted reason).filter (·.ticket = w.ticket)).map (·.result) =
      match reason w with
      | none => []
      | some e => if w.abandoned then [] else [.error e] := by
  unfold evicted
  rw [filter_filterMap_of_mem ticket_of_eviction h.waiting_sorted hw]
  cases reason w with
  | none => rfl
  | some e => exact results_of_reject e w

theorem results_evicted_of_forall_ne {reason : Waiting α → Option (QueueError ε)}
    (h : ∀ w ∈ q.waiting, w.ticket ≠ t) : (q.evicted reason).filter (·.ticket = t) = [] :=
  filter_filterMap_of_forall_ne ticket_of_eviction h

/-- A deed that shows nothing of a ticket, and leaves it where it is. -/
theorem passage_of_same {r : Run α β ε} {d : Deed α β ε} (hshows : r.shows d t = {})
    (hwaiting : (r.next d).queue.waiting = r.queue.waiting)
    (hrunning : (r.next d).queue.running = r.queue.running)
    (hnext : (r.next d).queue.nextTicket = r.queue.nextTicket) :
    Passage r.now d r.queue (r.next d).queue t (r.shows d t) := by
  rw [hshows]
  apply Passage.apart
  · intro w _
    rw [hwaiting]
  · intro x _
    rw [hrunning]
  · rw [hnext]

/-- A ticket that runs neither before nor after a deed. -/
theorem runs_apart {before after : Option (Running β ε)}
    (h : ∀ x, before = some x → x.ticket ≠ t) (h' : ∀ x, after = some x → x.ticket ≠ t)
    (x : Running β ε) (hx : x.ticket = t) : after = some x ↔ before = some x := by
  constructor
  · intro hrun
    exact absurd hx (h' x hrun)
  · intro hrun
    exact absurd hx (h x hrun)

theorem reason_of_eviction {key : DocumentId} {work : α} {w : Waiting α} {e : QueueError ε}
    (h : q.eviction? now key w = some e) : Reason now (.enqueue key work) q w e := by
  unfold eviction? at h
  split at h
  · rename_i hkey
    cases h
    exact .superseded work (by rw [hkey])
  · split at h
    · cases h
      exact .timedOut ‹_›
    · cases h

/-- Why a request goes that is passed over when the worker looks for the next one. -/
theorem reason_of_passed {w : Waiting α}
    (h : w.abandoned = true ∨ q.isTooOld now w = true) :
    ∃ e, Reason now (.start : Deed α β ε) q w e ∧
      ((reject .timedOut w : Option (Settled β ε)).toList.map (·.result)) =
        if w.abandoned then [] else [.error e] := by
  by_cases ha : w.abandoned = true
  · exact ⟨.canceled, .unheard ha, by simp [reject, ha]⟩
  · have hold := h.resolve_left ha
    exact ⟨.timedOut, .timedOut hold, by simp [reject, ha]⟩

theorem passage_enqueue (r : Run α β ε) (key : DocumentId) (work : α) (t : Nat) :
    Passage r.now (.enqueue key work) r.queue (r.next (.enqueue key work)).queue t
      (r.shows (.enqueue key work) t) := by
  have hline := r.inLine
  have hshows : r.shows (.enqueue key work) t =
      { results := ((r.queue.evicted (r.queue.eviction? r.now key)).filter
          (·.ticket = t)).map (·.result) } := by
    simp [Run.shows, Run.settles, Run.starting?, Run.ending?, Run.cancels, Run.dropping?,
      perform, enqueue_settled]
  have hqueue : (r.next (.enqueue key work)).queue =
      (r.queue.evict (r.queue.eviction? r.now key)).push
        ⟨r.queue.nextTicket, key, work, r.now, false⟩ := rfl
  -- what has no reason to go is where it was, unless it is the new request
  have happart : t ≠ r.queue.nextTicket →
      (∀ w ∈ r.queue.waiting, w.ticket = t → r.queue.eviction? r.now key w = none) →
      Passage r.now (.enqueue key work) r.queue (r.next (.enqueue key work)).queue t {} := by
    intro ht hstays
    rw [hqueue]
    apply Passage.apart
    · intro w hw
      rw [← mem_evict_iff hstays w hw]
      have hne : w ≠ ⟨r.queue.nextTicket, key, work, r.now, false⟩ := by
        rintro rfl
        exact ht hw.symm
      simp [push, hne]
    · intro x _
      rfl
    · show t < r.queue.nextTicket + 1 ↔ t < r.queue.nextTicket
      omega
  rw [hshows]
  by_cases ht : t = r.queue.nextTicket
  · rw [results_evicted_of_forall_ne]
    · refine .came ⟨r.queue.nextTicket, key, work, r.now, false⟩ ?_ ht.symm rfl ht
      rw [hqueue]
      exact List.mem_append_right _ (List.mem_singleton_self _)
    · intro w hw
      have := hline.lt_of_waiting hw
      omega
  · by_cases hw : ∃ w ∈ r.queue.waiting, w.ticket = t
    · obtain ⟨w, hw, rfl⟩ := hw
      rw [results_evicted_of_mem hline _ hw]
      cases hreason : r.queue.eviction? r.now key w with
      | none =>
        apply happart ht
        intro y hy hyw
        rw [hline.waiting_inj hy hw hyw, hreason]
      | some e =>
        have hissued := hline.lt_of_waiting hw
        refine .left w e false hw rfl (reason_of_eviction hreason) ?_ ?_
        · rw [hqueue, tickets_push]
          have hgone := not_mem_tickets_evict hline hw hreason
          simpa [hgone] using ht
        · show w.ticket < r.queue.nextTicket + 1
          omega
    · rw [results_evicted_of_forall_ne fun y hy hyt => hw ⟨y, hy, hyt⟩]
      exact happart ht fun y hy hyt => absurd ⟨y, hy, hyt⟩ hw

theorem passage_drop (r : Run α β ε) (ticket t : Nat) :
    Passage r.now (.drop ticket) r.queue (r.next (.drop ticket)).queue t
      (r.shows (.drop ticket) t) := by
  have hline := r.inLine
  have hqueue : (r.next (.drop ticket)).queue = r.queue.abandon ticket := rfl
  have hshows : r.shows (.drop ticket) t =
      { dropped := decide (t = ticket ∧ t < r.queue.nextTicket) } := by
    have hdropping : (t ∈ (r.dropping? (.drop ticket)).toList) =
        (t = ticket ∧ t < r.queue.nextTicket) := by
      unfold Run.dropping?
      by_cases h : ticket < r.queue.nextTicket
      · simp only [h, if_true, Option.mem_toList, Option.some.injEq, eq_iff_iff]
        constructor
        · rintro rfl
          exact ⟨rfl, h⟩
        · exact fun ht => ht.1.symm
      · simp only [h, if_false, Option.toList_none, List.not_mem_nil, eq_iff_iff, false_iff]
        rintro ⟨rfl, ht⟩
        exact h ht
    simp [Run.shows, Run.settles, Run.starting?, Run.ending?, Run.cancels, perform, hdropping]
  rw [hshows, hqueue]
  by_cases ht : t = ticket ∧ t < r.queue.nextTicket
  · obtain ⟨rfl, hissued⟩ := ht
    simp only [hissued, and_self, decide_true]
    by_cases hw : ∃ w ∈ r.queue.waiting, w.ticket = t
    · obtain ⟨w, hw, rfl⟩ := hw
      refine .droppedWaiting w hw rfl ?_
      exact List.mem_map.mpr ⟨w, hw, by simp⟩
    · by_cases hx : ∃ x, r.queue.running = some x ∧ x.ticket = t
      · obtain ⟨x, hx, rfl⟩ := hx
        refine .droppedRunning x hx rfl ?_
        simp [abandon, hx]
      · have hgone : t ∉ r.queue.tickets := by
          rw [mem_tickets]
          exact not_or.mpr ⟨hx, hw⟩
        exact .droppedGone hgone (by rwa [tickets_abandon]) hissued hissued
  · simp only [ht, decide_false]
    -- a request that waits or runs under another ticket is not touched
    have hother : ∀ w ∈ r.queue.waiting, w.ticket = t → w.ticket ≠ ticket := by
      intro w hw hwt hticket
      exact ht ⟨hwt.symm.trans hticket, hwt ▸ hline.lt_of_waiting hw⟩
    apply Passage.apart
    · intro w hwt
      unfold abandon
      rw [List.mem_map]
      constructor
      · rintro ⟨y, hy, rfl⟩
        by_cases hyt : y.ticket = ticket
        · rw [if_pos hyt] at hwt
          exact absurd hyt (hother y hy hwt)
        · rw [if_neg hyt]
          exact hy
      · intro hw
        exact ⟨w, hw, if_neg (hother w hw hwt)⟩
    · cases hx : r.queue.running with
      | none => simp [abandon, hx]
      | some y =>
        by_cases hy : y.ticket = ticket
        · have hyt : y.ticket ≠ t := by
            intro hyt
            exact ht ⟨hyt.symm.trans hy, hyt ▸ hline.lt_of_running hx⟩
          apply runs_apart
          · intro x hrun
            cases hrun
            exact hyt
          · intro x hrun
            simp only [abandon, hx, Option.map_some, hy, if_true, Option.some.injEq] at hrun
            rw [← hrun]
            exact hy ▸ hyt
        · intro x _
          simp [abandon, hx, hy]
    · rfl

theorem mem_cancels {r : Run α β ε} {wanted : DocumentId → Bool} :
    t ∈ r.cancels (.cancel wanted) ↔
      (∃ w ∈ r.queue.waiting, w.ticket = t ∧ wanted w.key = true) ∨
        ∃ x, r.queue.running = some x ∧ x.ticket = t ∧ wanted x.key = true := by
  unfold Run.cancels
  rw [List.mem_append, List.mem_map, Option.mem_toList, Option.map_eq_some_iff]
  apply or_congr
  · constructor
    · rintro ⟨w, hw, hwt⟩
      obtain ⟨hin, hwanted⟩ := List.mem_filter.mp hw
      exact ⟨w, hin, hwt, hwanted⟩
    · rintro ⟨w, hin, hwt, hwanted⟩
      exact ⟨w, List.mem_filter.mpr ⟨hin, hwanted⟩, hwt⟩
  · constructor
    · rintro ⟨x, hx, hxt⟩
      obtain ⟨hrun, hwanted⟩ := Option.filter_eq_some_iff.mp hx
      exact ⟨x, hrun, hxt, hwanted⟩
    · rintro ⟨x, hrun, hxt, hwanted⟩
      exact ⟨x, Option.filter_eq_some_iff.mpr ⟨hrun, hwanted⟩, hxt⟩

/-- What is told to a ticket whose request waits: it goes, if it is among the wanted. -/
theorem passage_cancel_of_waiting {r : Run α β ε} {w : Waiting α} (hw : w ∈ r.queue.waiting)
    (wanted : DocumentId → Bool) :
    Passage r.now (.cancel wanted) r.queue (r.queue.cancelWhere wanted).queue w.ticket
      { results := ((r.queue.evicted (cancellation? wanted)).filter
          (·.ticket = w.ticket)).map (·.result)
        canceled := decide (w.ticket ∈ r.cancels (.cancel wanted)) } := by
  have hline := r.inLine
  rw [results_evicted_of_mem hline _ hw]
  by_cases hwanted : wanted w.key = true
  · have hreason : (cancellation? wanted w : Option (QueueError ε)) = some .canceled :=
      if_pos hwanted
    rw [hreason]
    refine .left w .canceled _ hw rfl (.canceled wanted rfl) ?_ (hline.lt_of_waiting hw)
    rw [cancelWhere_tickets]
    exact not_mem_tickets_evict hline hw hreason
  · have hreason : (cancellation? wanted w : Option (QueueError ε)) = none := if_neg hwanted
    have hnot : w.ticket ∉ r.cancels (.cancel wanted) := by
      rw [mem_cancels]
      rintro (⟨y, hy, hyw, hwant⟩ | ⟨x, hx, hxw, -⟩)
      · rw [hline.waiting_inj hy hw hyw] at hwant
        exact hwanted hwant
      · have := hline.running_lt_waiting hx hw
        omega
    rw [hreason, decide_eq_false hnot]
    apply Passage.apart
    · intro y hy
      rw [cancelWhere_waiting]
      apply mem_evict_iff
      · intro z hz hzw
        rw [hline.waiting_inj hz hw hzw, hreason]
      · exact hy
    · -- the request that runs has another ticket, before and after
      have hnone : ∀ z, r.queue.running = some z → z.ticket ≠ w.ticket := by
        intro z hz
        exact Nat.ne_of_lt (hline.running_lt_waiting hz hw)
      apply runs_apart hnone
      intro x hx
      obtain ⟨z, hz, rfl⟩ := Option.map_eq_some_iff.mp hx
      have hzw := hnone z hz
      split <;> exact hzw
    · rfl

/-- What is told to a ticket whose request does not wait: to stop, if it runs and is among the
wanted. -/
theorem passage_cancel_of_not_waiting {r : Run α β ε}
    (hw : ¬ ∃ w ∈ r.queue.waiting, w.ticket = t) (wanted : DocumentId → Bool) :
    Passage r.now (.cancel wanted) r.queue (r.queue.cancelWhere wanted).queue t
      { results := ((r.queue.evicted (cancellation? wanted)).filter
          (·.ticket = t)).map (·.result)
        canceled := decide (t ∈ r.cancels (.cancel wanted)) } := by
  have hwaits : ∀ w, w.ticket = t →
      (w ∈ (r.queue.cancelWhere wanted).queue.waiting ↔ w ∈ r.queue.waiting) := by
    intro w hwt
    rw [cancelWhere_waiting]
    exact mem_evict_iff (fun y hy hyt => absurd ⟨y, hy, hyt⟩ hw) w hwt
  rw [results_evicted_of_forall_ne fun y hy hyt => hw ⟨y, hy, hyt⟩]
  by_cases hx : ∃ x, r.queue.running = some x ∧ x.ticket = t ∧ wanted x.key = true
  · have hcanceled := mem_cancels.mpr (.inr hx)
    obtain ⟨x, hx, rfl, hwanted⟩ := hx
    rw [decide_eq_true hcanceled]
    refine .told x hx rfl ?_
    simp [cancelWhere, hx, hwanted]
  · have hnot : t ∉ r.cancels (.cancel wanted) := by
      rw [mem_cancels]
      rintro (⟨y, hy, hyt, -⟩ | hrun)
      · exact hw ⟨y, hy, hyt⟩
      · exact hx hrun
    rw [decide_eq_false hnot]
    refine .apart hwaits ?_ (by rfl)
    cases hy : r.queue.running with
    | none => simp [cancelWhere, hy]
    | some y =>
      by_cases hwanted : wanted y.key = true
      · have hyt : y.ticket ≠ t := fun hyt => hx ⟨y, hy, hyt, hwanted⟩
        apply runs_apart
        · intro x hrun
          cases hrun
          exact hyt
        · intro x hrun
          simp only [cancelWhere, hy, Option.map_some, hwanted, if_true,
            Option.some.injEq] at hrun
          rw [← hrun]
          exact hyt
      · intro x _
        simp [cancelWhere, hy, hwanted]

theorem passage_cancel (r : Run α β ε) (wanted : DocumentId → Bool) (t : Nat) :
    Passage r.now (.cancel wanted) r.queue (r.next (.cancel wanted)).queue t
      (r.shows (.cancel wanted) t) := by
  have hqueue : (r.next (.cancel wanted)).queue = (r.queue.cancelWhere wanted).queue := rfl
  have hshows : r.shows (.cancel wanted) t =
      { results := ((r.queue.evicted (cancellation? wanted)).filter
          (·.ticket = t)).map (·.result)
        canceled := decide (t ∈ r.cancels (.cancel wanted)) } := by
    simp [Run.shows, Run.settles, Run.starting?, Run.ending?, Run.dropping?, perform,
      cancelWhere_settled]
  rw [hshows, hqueue]
  by_cases hw : ∃ w ∈ r.queue.waiting, w.ticket = t
  · obtain ⟨w, hw, rfl⟩ := hw
    exact passage_cancel_of_waiting hw wanted
  · exact passage_cancel_of_not_waiting hw wanted

theorem passage_endWork (r : Run α β ε) (e : WorkEnd β ε) (t : Nat) :
    Passage r.now (.endWork e) r.queue (r.next (.endWork e)).queue t
      (r.shows (.endWork e) t) := by
  have hshows : r.shows (.endWork e) t =
      { ends := ((r.ending? (.endWork e)).toList.filter (·.1 = t)).map (·.2) } := by
    simp [Run.shows, Run.settles, Run.starting?, Run.cancels, Run.dropping?, perform]
  cases hat : r.queue.atWork? with
  | none =>
    apply passage_of_same
    · simp [hshows, Run.ending?, hat]
    all_goals simp [Run.queue, perform, hat]
  | some ticket =>
    obtain ⟨x, hx, rfl⟩ := Option.map_eq_some_iff.mp hat
    obtain ⟨hrun, hgoes⟩ := Option.filter_eq_some_iff.mp hx
    have hqueue : (r.next (.endWork e)).queue = r.queue.finish e := by
      simp [Run.queue, perform, hat]
    have hrun' : (r.queue.finish e).running = some { x with ended := some e } := by
      simp [finish, hrun]
    rw [hshows, hqueue]
    simp only [Run.ending?, hat, Option.map_some, Option.toList_some]
    by_cases ht : x.ticket = t
    · subst ht
      simp only [decide_true, List.filter_cons_of_pos, List.filter_nil, List.map_cons, List.map_nil]
      exact .ended x e hrun rfl (by simpa using hgoes) hrun'
    · simp only [ht, decide_false, Bool.false_eq_true, not_false_eq_true, List.filter_cons_of_neg,
        List.filter_nil, List.map_nil]
      refine .apart (fun _ _ => by rfl) ?_ (by rfl)
      apply runs_apart
      · intro y hy
        cases hrun.symm.trans hy
        exact ht
      · intro y hy
        cases hrun'.symm.trans hy
        exact ht

theorem passage_reap (r : Run α β ε) (t : Nat) :
    Passage r.now .reap r.queue (r.next .reap).queue t (r.shows .reap t) := by
  have hline := r.inLine
  have hqueue : (r.next .reap).queue = r.queue.reap.1 := rfl
  have hshows : r.shows .reap t =
      { results := (r.queue.reap.2.filter (·.ticket = t)).map (·.result) } := by
    simp [Run.shows, Run.settles, Run.starting?, Run.ending?, Run.cancels, Run.dropping?, perform]
  cases hrun : r.queue.running with
  | none =>
    have hreap : r.queue.reap = (r.queue, []) := by simp [reap, hrun]
    apply passage_of_same
    · simp [hshows, hreap]
    all_goals simp [hqueue, hreap]
  | some x =>
    cases hended : x.ended with
    | none =>
      have hreap : r.queue.reap = (r.queue, []) := by simp [reap, hrun, hended]
      apply passage_of_same
      · simp [hshows, hreap]
      all_goals simp [hqueue, hreap]
    | some e =>
      have hreap : r.queue.reap = ({ r.queue with running := none },
          if x.abandoned then [] else [⟨x.ticket, x.result e⟩]) := by
        simp [reap, hrun, hended]
      rw [hshows, hqueue, hreap]
      by_cases ht : x.ticket = t
      · subst ht
        have hresults : ((if x.abandoned then [] else [⟨x.ticket, x.result e⟩] :
            List (Settled β ε)).filter (·.ticket = x.ticket)).map (·.result) =
            if x.abandoned then [] else [x.result e] := by
          split <;> simp
        rw [hresults]
        refine .reaped x e hrun rfl hended ?_ (hline.lt_of_running hrun)
        intro hin
        rcases mem_tickets.mp hin with ⟨y, hy, -⟩ | ⟨w, hw, hwx⟩
        · cases hy
        · have := hline.running_lt_waiting hrun hw
          omega
      · have hresults : ((if x.abandoned then [] else [⟨x.ticket, x.result e⟩] :
            List (Settled β ε)).filter (·.ticket = t)).map (·.result) = [] := by
          split <;> simp [ht]
        rw [hresults]
        refine .apart (fun _ _ => by rfl) ?_ (by rfl)
        apply runs_apart
        · intro y hy
          cases hrun.symm.trans hy
          exact ht
        · intro y hy
          cases hy

theorem shows_start {r : Run α β ε} (hrun : r.queue.running = none) (t : Nat) :
    r.shows .start t =
      { results := ((r.queue.startNext r.now).2.1.filter (·.ticket = t)).map (·.result)
        starts := ((r.queue.startNext r.now).2.2.map (·.request)).toList.filter
          (·.ticket = t) } := by
  have hstart : perform r.now r.queue .start = r.queue.startNext r.now := by
    simp [perform, hrun]
  simp [Run.shows, Run.settles, Run.starting?, Run.ending?, Run.cancels, Run.dropping?, hstart]

/-- When all requests that wait are passed over, each of them goes. -/
theorem passage_rests {r : Run α β ε} (hrun : r.queue.running = none)
    (hpassed : ∀ x ∈ r.queue.waiting, x.abandoned = true ∨ r.queue.isTooOld r.now x = true)
    (t : Nat) :
    Passage r.now .start r.queue { r.queue with waiting := [], working := false } t
      { results := ((r.queue.waiting.filterMap (reject .timedOut)).filter (·.ticket = t)).map
          (·.result) } := by
  have hempty : t ∉ ({ r.queue with waiting := [], working := false } :
      RequestQueue α β ε).tickets := by
    simp [tickets, hrun]
  by_cases hw : ∃ w ∈ r.queue.waiting, w.ticket = t
  · obtain ⟨w, hw, rfl⟩ := hw
    obtain ⟨e, hreason, hresults⟩ := reason_of_passed (hpassed w hw)
    rw [filter_filterMap_of_mem (fun _ _ => ticket_of_reject) r.inLine.waiting_sorted hw, hresults]
    exact .left w e false hw rfl hreason hempty (r.inLine.lt_of_waiting hw)
  · rw [filter_filterMap_of_forall_ne (fun _ _ => ticket_of_reject)
      fun w hin hwt => hw ⟨w, hin, hwt⟩]
    apply Passage.apart
    · intro w hwt
      simp only [List.not_mem_nil, false_iff]
      exact fun hin => hw ⟨w, hin, hwt⟩
    · intro x _
      rfl
    · rfl

/-- When a request is found behind those that are passed over, these go and it starts. -/
theorem passage_finds {r : Run α β ε} (hrun : r.queue.running = none)
    {passed rest : List (Waiting α)} {w : Waiting α}
    (hsplit : r.queue.waiting = passed ++ w :: rest)
    (hpassed : ∀ x ∈ passed, x.abandoned = true ∨ r.queue.isTooOld r.now x = true)
    (hheeded : w.abandoned = false) (hyoung : r.queue.isTooOld r.now w = false) (t : Nat) :
    Passage r.now .start r.queue
      { r.queue with waiting := rest, running := some { ticket := w.ticket, key := w.key } } t
      { results := ((passed.filterMap (reject .timedOut)).filter (·.ticket = t)).map (·.result)
        starts := [w.request].filter (·.ticket = t) } := by
  have hline := r.inLine
  have hsorted := hline.waiting_sorted
  rw [hsplit, List.map_append, List.map_cons] at hsorted
  obtain ⟨hsorted, hbehind, hbefore⟩ := List.pairwise_append.mp hsorted
  obtain ⟨hrest, -⟩ := List.pairwise_cons.mp hbehind
  -- the ticket that starts is behind those passed over and before the rest
  have hpassedlt : ∀ y ∈ passed, y.ticket < w.ticket := fun y hy =>
    hbefore _ (List.mem_map_of_mem hy) _ List.mem_cons_self
  have hrestgt : ∀ y ∈ rest, w.ticket < y.ticket := fun y hy =>
    hrest _ (List.mem_map_of_mem hy)
  by_cases ht : w.ticket = t
  · subst ht
    rw [filter_filterMap_of_forall_ne (fun _ _ => ticket_of_reject)
      fun y hy => Nat.ne_of_lt (hpassedlt y hy)]
    have hstarts : [w.request].filter (·.ticket = w.ticket) = [w.request] := by
      simp [Waiting.request]
    rw [hstarts]
    exact .started w (by simp [hsplit]) rfl hheeded hyoung rfl
  · have hstarts : [w.request].filter (·.ticket = t) = [] := by
      simp [Waiting.request, ht]
    rw [hstarts]
    by_cases hpass : ∃ y ∈ passed, y.ticket = t
    · obtain ⟨y, hy, rfl⟩ := hpass
      have hywaits : y ∈ r.queue.waiting := by simp [hsplit, hy]
      obtain ⟨e, hreason, hresults⟩ := reason_of_passed (hpassed y hy)
      rw [filter_filterMap_of_mem (fun _ _ => ticket_of_reject) hsorted hy, hresults]
      refine .left y e false hywaits rfl hreason ?_ (hline.lt_of_waiting hywaits)
      have hlt := hpassedlt y hy
      rw [mem_tickets]
      rintro (⟨x, hx, hxy⟩ | ⟨z, hz, hzy⟩)
      · cases hx
        exact ht hxy
      · have := hrestgt z hz
        omega
    · rw [filter_filterMap_of_forall_ne (fun _ _ => ticket_of_reject)
        fun y hy hyt => hpass ⟨y, hy, hyt⟩]
      apply Passage.apart
      · intro y hyt
        rw [hsplit, List.mem_append, List.mem_cons]
        constructor
        · intro hy
          exact .inr (.inr hy)
        · rintro (hy | rfl | hy)
          · exact absurd ⟨y, hy, hyt⟩ hpass
          · exact absurd hyt ht
          · exact hy
      · apply runs_apart
        · intro x hx
          cases hrun.symm.trans hx
        · intro x hx
          cases hx
          exact ht
      · rfl

theorem passage_start (r : Run α β ε) (t : Nat) :
    Passage r.now .start r.queue (r.next .start).queue t (r.shows .start t) := by
  cases hrun : r.queue.running with
  | some x =>
    have hsame : perform r.now r.queue .start = (r.queue, [], none) := by simp [perform, hrun]
    apply passage_of_same
    · simp [Run.shows, Run.settles, Run.starting?, Run.ending?, Run.cancels, Run.dropping?, hsame]
    all_goals simp [Run.queue, hsame]
  | none =>
    have hqueue : (r.next .start).queue = (r.queue.startNext r.now).1 := by
      simp [Run.queue, perform, hrun]
    rw [shows_start hrun, hqueue]
    cases startsNext r.now r.queue with
    | rests hpassed heq =>
      rw [heq]
      exact passage_rests hrun hpassed t
    | finds passed w rest hsplit hpassed hheeded hyoung heq =>
      rw [heq]
      exact passage_finds hrun hsplit hpassed hheeded hyoung t

/-- What each deed does to each ticket. -/
theorem passage (r : Run α β ε) (d : Deed α β ε) (t : Nat) :
    Passage r.now d r.queue (r.next d).queue t (r.shows d t) := by
  cases d with
  | enqueue key work => exact passage_enqueue r key work t
  | drop ticket => exact passage_drop r ticket t
  | cancel wanted => exact passage_cancel r wanted t
  | endWork e => exact passage_endWork r e t
  | reap => exact passage_reap r t
  | start => exact passage_start r t
  | setMaxAge age => exact passage_of_same rfl rfl rfl rfl
  | wait time => exact passage_of_same rfl rfl rfl rfl

end RequestQueue

end SmellWatch
