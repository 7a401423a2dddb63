import SmellWatch.Proofs.Queue.Order
/-! What comes of each ticket.

Where a ticket is tells what has been seen of it (`Standing`): nothing before it is given
out, no more than that it was dropped while its request waits, one start while it runs, and
one of four endings when it is gone (`Concluded`).  `Standing.next` follows a ticket
through one deed and `Run.standing` through a run.  `settled_once_and_truthful` reads off
that a ticket is settled once at most, and always when the worker rests, and what each
outcome says (`Truthful`). -/

namespace SmellWatch

namespace RequestQueue

variable {α β ε : Type} {q q' : RequestQueue α β ε} {now : Duration} {d : Deed α β ε} {t : Nat}

/-- What an end of work is to those who wait for it, if it was not canceled. -/
def resultOf : WorkEnd β ε → Except (QueueError ε) β
  | .returned y => ofReturn y
  | .panicked => .error .panicked

theorem result_eq (e : WorkEnd β ε) (x : Running β ε) :
    x.result e = if x.canceled then .error .canceled else resultOf e := by
  unfold Running.result
  split
  · rfl
  · cases e with
    | panicked => rfl
    | returned y => cases y <;> rfl

/-- What ends a work is no silent reason. -/
theorem resultOf_ne_silent (e : WorkEnd β ε) {x : QueueError ε} (hx : x.isSilent = true) :
    resultOf e ≠ .error x := by
  intro h
  cases e with
  | panicked =>
    cases h
    cases hx
  | returned y =>
    cases y with
    | ok z => cases h
    | error z =>
      cases h
      cases hx

theorem resultOf_inj {e e' : WorkEnd β ε} (h : resultOf e = resultOf e') : e = e' := by
  cases e with
  | panicked =>
    cases e' with
    | panicked => rfl
    | returned y => cases y <;> cases h
  | returned y =>
    cases e' with
    | panicked => cases y <;> cases h
    | returned z =>
      cases y <;> cases z <;> cases h <;> rfl

/-! ## Where a ticket is and what has been seen of it -/

/-- What can have been seen of a ticket when its request is gone. -/
inductive Concluded : Tale α β ε → Prop
  /-- Nobody waited for it. -/
  | unheard {a : Tale α β ε} (hdropped : a.dropped = true) (hresults : a.results = []) :
      Concluded a
  /-- It went without having started. -/
  | refused {a : Tale α β ε} (e : QueueError ε) (hsilent : e.isSilent = true)
      (hresults : a.results = [.error e]) (hstarts : a.starts = []) : Concluded a
  /-- It was canceled while it ran. -/
  | stopped {a : Tale α β ε} (hresults : a.results = [.error .canceled]) : Concluded a
  /-- Its work ended. -/
  | finished {a : Tale α β ε} (x : Request α) (e : WorkEnd β ε)
      (hresults : a.results = [resultOf e]) (hstarts : a.starts = [x]) (hends : a.ends = [e])
      (hcanceled : a.canceled = false) : Concluded a

/-- Where a ticket is, and what has been seen of it. -/
inductive Standing (q : RequestQueue α β ε) (t : Nat) : Tale α β ε → Prop
  | unissued (h : q.nextTicket ≤ t) : Standing q t {}
  | waiting (w : Waiting α) (hw : w ∈ q.waiting) (ht : w.ticket = t) :
      Standing q t { dropped := w.abandoned }
  | running (x : Running β ε) (y : Request α) (hx : q.running = some x) (ht : x.ticket = t) :
      Standing q t
        { starts := [y], ends := x.ended.toList, canceled := x.canceled, dropped := x.abandoned }
  | gone {a : Tale α β ε} (hgone : t ∉ q.tickets) (hissued : t < q.nextTicket)
      (ha : Concluded a) : Standing q t a

variable {a b : Tale α β ε}

namespace Standing

/-! A ticket is in one place. -/

theorem of_unissued (h : q.InLine) (hs : Standing q t a) (ht : t = q.nextTicket) : a = {} := by
  cases hs with
  | unissued _ => rfl
  | waiting w hw hwt =>
    have := h.lt_of_waiting hw
    omega
  | running x y hx hxt =>
    have := h.lt_of_running hx
    omega
  | gone _ hissued _ => omega

theorem of_waiting (h : q.InLine) (hs : Standing q t a) {w : Waiting α} (hw : w ∈ q.waiting)
    (ht : w.ticket = t) : a = { dropped := w.abandoned } := by
  cases hs with
  | unissued hun =>
    have := h.lt_of_waiting hw
    omega
  | waiting v hv hvt => rw [h.waiting_inj hv hw (hvt.trans ht.symm)]
  | running x y hx hxt =>
    have := h.running_lt_waiting hx hw
    omega
  | gone hgone _ _ => exact absurd (mem_tickets.mpr (.inr ⟨w, hw, ht⟩)) hgone

theorem of_running (h : q.InLine) (hs : Standing q t a) {x : Running β ε}
    (hx : q.running = some x) (ht : x.ticket = t) :
    ∃ y, a = { starts := [y], ends := x.ended.toList, canceled := x.canceled,
               dropped := x.abandoned } := by
  cases hs with
  | unissued hun =>
    have := h.lt_of_running hx
    omega
  | waiting w hw hwt =>
    have := h.running_lt_waiting hx hw
    omega
  | running x' y hx' _ =>
    cases hx.symm.trans hx'
    exact ⟨y, rfl⟩
  | gone hgone _ _ => exact absurd (mem_tickets.mpr (.inl ⟨x, hx, ht⟩)) hgone

theorem of_gone (hs : Standing q t a) (hgone : t ∉ q.tickets) (hissued : t < q.nextTicket) :
    Concluded a := by
  cases hs with
  | unissued hun => omega
  | waiting w hw hwt => exact absurd (mem_tickets.mpr (.inr ⟨w, hw, hwt⟩)) hgone
  | running x y hx hxt => exact absurd (mem_tickets.mpr (.inl ⟨x, hx, hxt⟩)) hgone
  | gone _ _ ha => exact ha

end Standing

theorem Tale.append_empty (a : Tale α β ε) : a.append {} = a := by
  simp [Tale.append]

/-- To be dropped is all that can happen to a ticket whose request is gone. -/
theorem Concluded.drop (h : Concluded a) : Concluded (a.append { dropped := true }) := by
  cases h with
  | unheard hdropped hresults =>
    exact .unheard (by simp [Tale.append]) (by simp [Tale.append, hresults])
  | refused e hsilent hresults hstarts =>
    exact .refused e hsilent (by simp [Tale.append, hresults]) (by simp [Tale.append, hstarts])
  | stopped hresults => exact .stopped (by simp [Tale.append, hresults])
  | finished x e hresults hstarts hends hcanceled =>
    exact .finished x e (by simp [Tale.append, hresults]) (by simp [Tale.append, hstarts])
      (by simp [Tale.append, hends]) (by simp [Tale.append, hcanceled])

/-- A request that goes without having started. -/
theorem concluded_of_left {w : Waiting α} {e : QueueError ε} (canceled : Bool)
    (hsilent : e.isSilent = true) :
    Concluded (({ dropped := w.abandoned } : Tale α β ε).append
      { results := if w.abandoned then [] else [.error e], canceled := canceled }) := by
  by_cases ha : w.abandoned = true
  · exact .unheard (by simp [Tale.append, ha]) (by simp [Tale.append, ha])
  · exact .refused e hsilent (by simp [Tale.append, ha]) (by simp [Tale.append])

/-- A request whose work has ended, and which is settled. -/
theorem concluded_of_reaped {x : Running β ε} {e : WorkEnd β ε} (y : Request α)
    (hended : x.ended = some e) :
    Concluded (({ starts := [y], ends := x.ended.toList, canceled := x.canceled,
                  dropped := x.abandoned } : Tale α β ε).append
      { results := if x.abandoned then [] else [x.result e] }) := by
  by_cases ha : x.abandoned = true
  · exact .unheard (by simp [Tale.append, ha]) (by simp [Tale.append, ha])
  · by_cases hc : x.canceled = true
    · exact .stopped (by simp [Tale.append, ha, result_eq, hc])
    · exact .finished y e (by simp [Tale.append, ha, result_eq, hc]) (by simp [Tale.append])
        (by simp [Tale.append, hended]) (by simpa [Tale.append] using hc)

/-- What stays where it is was there before. -/
theorem mem_tickets_of_apart (hwaits : ∀ w, w.ticket = t → (w ∈ q'.waiting ↔ w ∈ q.waiting))
    (hruns : ∀ x, x.ticket = t → (q'.running = some x ↔ q.running = some x))
    (hin : t ∈ q'.tickets) : t ∈ q.tickets := by
  rw [mem_tickets] at hin ⊢
  rcases hin with ⟨x, hx, hxt⟩ | ⟨w, hw, hwt⟩
  · exact .inl ⟨x, (hruns x hxt).mp hx, hxt⟩
  · exact .inr ⟨w, (hwaits w hwt).mp hw, hwt⟩

/-- A ticket is followed through one deed. -/
theorem Standing.next (h : q.InLine) (hs : Standing q t a) (hp : Passage now d q q' t b) :
    Standing q' t (a.append b) := by
  cases hp with
  | apart hwaits hruns hissued =>
    rw [Tale.append_empty]
    cases hs with
    | unissued hun => exact .unissued (by omega)
    | waiting w hw ht => exact .waiting w ((hwaits w ht).mpr hw) ht
    | running x y hx ht => exact .running x y ((hruns x ht).mpr hx) ht
    | gone hgone hissued' ha =>
      exact .gone (mt (mem_tickets_of_apart hwaits hruns) hgone) (hissued.mpr hissued') ha
  | came w hw ht hheeded hnew =>
    rw [hs.of_unissued h hnew, Tale.append_empty]
    have hstands : Standing q' t { dropped := w.abandoned } := .waiting w hw ht
    rwa [hheeded] at hstands
  | droppedWaiting w hw ht hw' =>
    rw [hs.of_waiting h hw ht]
    have hstands : Standing q' t { dropped := true } := .waiting _ hw' ht
    simpa [Tale.append] using hstands
  | droppedRunning x hx ht hx' =>
    obtain ⟨y, rfl⟩ := hs.of_running h hx ht
    have hstands := Standing.running _ y hx' ht
    simpa [Tale.append] using hstands
  | droppedGone hgone hgone' hissued hissued' =>
    exact .gone hgone' hissued' (hs.of_gone hgone hissued).drop
  | left w e canceled hw ht hreason hgone hissued =>
    rw [hs.of_waiting h hw ht]
    exact .gone hgone hissued (concluded_of_left canceled hreason.isSilent)
  | started w hw ht hheeded hyoung hx =>
    rw [hs.of_waiting h hw ht, hheeded]
    have hstands := Standing.running _ w.request hx ht
    simpa [Tale.append] using hstands
  | told x hx ht hx' =>
    obtain ⟨y, rfl⟩ := hs.of_running h hx ht
    have hstands := Standing.running _ y hx' ht
    simpa [Tale.append] using hstands
  | ended x e hx ht hgoes hx' =>
    obtain ⟨y, rfl⟩ := hs.of_running h hx ht
    have hstands := Standing.running _ y hx' ht
    simpa [Tale.append, hgoes] using hstands
  | reaped x e hx ht hended hgone hissued =>
    obtain ⟨y, rfl⟩ := hs.of_running h hx ht
    exact .gone hgone hissued (concluded_of_reaped y hended)

namespace Run

variable {r : Run α β ε}

/-- A ticket is followed through a run. -/
theorem standing (r : Run α β ε) (t : Nat) : Standing r.queue t (r.tale t) := by
  induction r with
  | start maxAge => exact .unissued (Nat.zero_le t)
  | next r d ih =>
    rw [tale_next]
    exact ih.next r.inLine (passage r d t)

/-! ## What has been seen, and what it says -/

theorem concluded_of_result {x : Except (QueueError ε) β} (h : ⟨t, x⟩ ∈ r.settled) :
    Concluded (r.tale t) ∧ x ∈ (r.tale t).results := by
  have hx := mem_results.mpr h
  have hs := r.standing t
  refine ⟨?_, hx⟩
  generalize r.tale t = a at hx hs
  cases hs with
  | gone _ _ ha => exact ha
  | unissued _ => cases hx
  | waiting w hw ht => cases hx
  | running y z hy ht => cases hx

theorem settled_once (r : Run α β ε) : (r.settled.map (·.ticket)).Nodup := by
  rw [List.nodup_iff_count_le_one]
  intro t
  have hcount : (r.settled.map (·.ticket)).count t = (r.tale t).results.length := by
    rw [List.count_eq_countP, List.countP_map, List.countP_eq_length_filter, tale, List.length_map]
    congr 1
  rw [hcount]
  have hs := r.standing t
  generalize r.tale t = a at hs
  cases hs with
  | unissued _ => exact Nat.zero_le 1
  | waiting w hw ht => exact Nat.zero_le 1
  | running x y hx ht => exact Nat.zero_le 1
  | gone _ _ ha =>
    cases ha with
    | unheard _ hresults => simp [hresults]
    | refused e _ hresults _ => simp [hresults]
    | stopped hresults => simp [hresults]
    | finished x e hresults _ _ _ => simp [hresults]

/-- When the worker rests, each ticket is settled, unless it was dropped. -/
theorem settled_of_rest (hrest : r.queue.working = false) {x : Request α} (hx : x ∈ r.requests)
    (hkept : x.ticket ∉ r.dropped) : ∃ s ∈ r.settled, s.ticket = x.ticket := by
  have hissued : x.ticket < r.queue.nextTicket := by
    rw [← List.mem_range, ← r.tickets_requests]
    exact List.mem_map_of_mem hx
  have hnone : ¬(r.queue.waiting ≠ [] ∨ r.queue.running.isSome = true) := by
    intro hbusy
    rw [r.guarded.worked hbusy] at hrest
    cases hrest
  obtain ⟨hwaiting, hrunning⟩ := not_or.mp hnone
  have hgone : x.ticket ∉ r.queue.tickets := by
    rw [tickets_of_idle (by simpa using hrunning), not_not.mp hwaiting]
    exact List.not_mem_nil
  have hsome : ∃ y, y ∈ (r.tale x.ticket).results := by
    have hdropped : (r.tale x.ticket).dropped = false := decide_eq_false hkept
    cases (r.standing x.ticket).of_gone hgone hissued with
    | unheard hd _ =>
      rw [hdropped] at hd
      cases hd
    | refused e _ hresults _ => exact ⟨_, hresults ▸ List.mem_singleton_self _⟩
    | stopped hresults => exact ⟨_, hresults ▸ List.mem_singleton_self _⟩
    | finished y e hresults _ _ _ => exact ⟨_, hresults ▸ List.mem_singleton_self _⟩
  obtain ⟨y, hy⟩ := hsome
  exact ⟨_, mem_results.mp hy, rfl⟩

/-- Whether somebody waits for a request that waits. -/
theorem abandoned_eq {w : Waiting α} (hw : w ∈ r.queue.waiting) :
    w.abandoned = decide (w.ticket ∈ r.dropped) := by
  have htale := (r.standing w.ticket).of_waiting r.inLine hw rfl
  exact (congrArg Tale.dropped htale).symm

/-- A ticket is settled because its request goes without having started, or because its work
has ended. -/
theorem settles_cases {x : Except (QueueError ε) β} (h : ⟨t, x⟩ ∈ r.settles d) :
    (∃ w ∈ r.queue.waiting, w.ticket = t ∧ w.abandoned = false ∧
      t ∉ (r.next d).queue.tickets ∧ ∃ e, Reason r.now d r.queue w e ∧ x = .error e) ∨
      ∃ y e, r.queue.running = some y ∧ y.ticket = t ∧ x = y.result e := by
  have hx : x ∈ (r.shows d t).results := by
    simp only [shows, List.mem_map, List.mem_filter, decide_eq_true_eq]
    exact ⟨_, ⟨h, rfl⟩, rfl⟩
  have hp := passage r d t
  generalize r.shows d t = b at hx hp
  cases hp with
  | left w e canceled hw ht hreason hgone hissued =>
    left
    by_cases ha : w.abandoned = true
    · simp [ha] at hx
    · have hxe : x = .error e := by simpa [ha] using hx
      exact ⟨w, hw, ht, by simpa using ha, hgone, e, hreason, hxe⟩
  | reaped y e hy ht hended hgone hissued =>
    right
    refine ⟨y, e, hy, ht, ?_⟩
    by_cases ha : y.abandoned = true
    · simp [ha] at hx
    · simpa [ha] using hx
  | apart hwaits hruns hissued => cases hx
  | came w hw ht hheeded hnew => cases hx
  | droppedWaiting w hw ht hw' => cases hx
  | droppedRunning y hy ht hy' => cases hx
  | droppedGone hgone hgone' hissued hissued' => cases hx
  | started w hw ht hheeded hyoung hy => cases hx
  | told y hy ht hy' => cases hx
  | ended y e hy ht hgoes hy' => cases hx

/-- A work that ends is settled neither as superseded nor as timed out. -/
theorem result_ne_of_silent {y : Running β ε} {e : WorkEnd β ε} {x : QueueError ε}
    (hsilent : x.isSilent = true) (hx : x ≠ .canceled) : y.result e ≠ .error x := by
  rw [result_eq]
  split
  · intro h
    cases h
    exact hx rfl
  · exact resultOf_ne_silent e hsilent

/-- A request that waits for somebody is superseded by a newer one for its document. -/
theorem superseded_of_enqueue {w : Waiting α} (hw : w ∈ r.queue.waiting)
    (hkept : w.ticket ∉ r.dropped) (work : α) :
    ⟨w.ticket, .error .superseded⟩ ∈ r.settles (.enqueue w.key work) := by
  have hheeded : w.abandoned = false := (abandoned_eq hw).trans (decide_eq_false hkept)
  exact List.mem_filterMap.mpr ⟨w, hw, by simp [eviction?, reject, hheeded]⟩

theorem settled_superseded_iff (r : Run α β ε) (t : Nat) :
    ⟨t, .error .superseded⟩ ∈ r.settled ↔
      ∃ p w work, (p, .enqueue w.key work) ∈ r.steps ∧ w ∈ p.queue.waiting ∧ w.ticket = t ∧
        t ∉ p.dropped ∧ t ∉ (p.next (.enqueue w.key work)).queue.tickets := by
  rw [mem_settled]
  constructor
  · rintro ⟨p, d, hstep, hs⟩
    rcases settles_cases hs with ⟨w, hw, rfl, hheeded, hgone, e, hreason, hx⟩ | ⟨y, e, -, -, hx⟩
    · cases hx
      cases hreason with
      | superseded work hd =>
        subst hd
        have hkept := (abandoned_eq hw).symm.trans hheeded
        exact ⟨p, w, work, hstep, hw, rfl, of_decide_eq_false hkept, hgone⟩
    · exact absurd hx.symm (result_ne_superseded e y)
  · rintro ⟨p, w, work, hstep, hw, rfl, hkept, -⟩
    exact ⟨p, _, hstep, superseded_of_enqueue hw hkept work⟩

/-- What times out has waited for longer than the greatest age of that time. -/
theorem old_of_timedOut (h : ⟨t, .error .timedOut⟩ ∈ r.settles d) :
    ∃ x ∈ r.requests, x.ticket = t ∧ r.queue.maxAge < r.now - x.since := by
  rcases settles_cases h with ⟨w, hw, ht, -, -, e, hreason, hx⟩ | ⟨y, e, -, -, hx⟩
  · cases hx
    cases hreason with
    | timedOut hold =>
      exact ⟨w.request, request_mem_requests hw, ht, of_decide_eq_true hold⟩
  · exact absurd hx.symm (result_ne_of_silent rfl (by simp))

/-- What starts has not waited for longer than the greatest age of that time. -/
theorem young_of_starting {x : Request α} (h : r.starting? d = some x) :
    x ∈ r.requests ∧ r.now - x.since ≤ r.queue.maxAge := by
  have hx : x ∈ (r.shows d x.ticket).starts := by simp [shows, h]
  have hp := passage r d x.ticket
  generalize r.shows d x.ticket = b at hx hp
  cases hp with
  | started w hw ht hheeded hyoung hy =>
    rw [List.mem_singleton.mp hx]
    exact ⟨request_mem_requests hw, Nat.le_of_not_lt (of_decide_eq_false hyoung)⟩
  | left w e canceled hw ht hreason hgone hissued => cases hx
  | reaped y e hy ht hended hgone hissued => cases hx
  | apart hwaits hruns hissued => cases hx
  | came w hw ht hheeded hnew => cases hx
  | droppedWaiting w hw ht hw' => cases hx
  | droppedRunning y hy ht hy' => cases hx
  | droppedGone hgone hgone' hissued hissued' => cases hx
  | told y hy ht hy' => cases hx
  | ended y e hy ht hgoes hy' => cases hx

/-- What is settled as superseded or timed out never starts. -/
theorem not_started {e : QueueError ε} (h : ⟨t, .error e⟩ ∈ r.settled)
    (he : e = .superseded ∨ e = .timedOut) : ∀ x ∈ r.starts, x.ticket ≠ t := by
  have hsilent : e.isSilent = true := by rcases he with rfl | rfl <;> rfl
  have hne : e ≠ .canceled := by rcases he with rfl | rfl <;> simp
  obtain ⟨ha, hx⟩ := concluded_of_result h
  have hstarts : (r.tale t).starts = [] := by
    cases ha with
    | refused _ _ _ hstarts => exact hstarts
    | unheard _ hresults =>
      rw [hresults] at hx
      cases hx
    | stopped hresults =>
      rw [hresults, List.mem_singleton] at hx
      cases hx
      exact absurd rfl hne
    | finished _ e' hresults _ _ _ =>
      rw [hresults, List.mem_singleton] at hx
      exact absurd hx.symm (resultOf_ne_silent e' hsilent)
  intro x hxs hxt
  have hin : x ∈ (r.tale t).starts := List.mem_filter.mpr ⟨hxs, decide_eq_true hxt⟩
  rw [hstarts] at hin
  cases hin

/-- What is settled with the end of its work started once, ended once, in that way, and was
not canceled. -/
theorem once_of_resultOf {e : WorkEnd β ε} (h : ⟨t, resultOf e⟩ ∈ r.settled) :
    (∃ x, r.starts.filter (·.ticket = t) = [x]) ∧ r.ends.filter (·.1 = t) = [(t, e)] ∧
      t ∉ r.canceled := by
  obtain ⟨ha, hx⟩ := concluded_of_result h
  cases ha with
  | finished x e' hresults hstarts hends hcanceled =>
    rw [hresults, List.mem_singleton] at hx
    cases resultOf_inj hx
    refine ⟨⟨x, hstarts⟩, ?_, of_decide_eq_false hcanceled⟩
    obtain ⟨y, hy, rfl⟩ := List.map_eq_singleton_iff.mp hends
    have hin : y ∈ r.ends.filter (·.1 = t) := hy ▸ List.mem_singleton_self y
    have hyt : y.1 = t := by simpa using (List.mem_filter.mp hin).2
    rw [hy, ← hyt]
  | unheard _ hresults =>
    rw [hresults] at hx
    cases hx
  | refused e' hsilent hresults _ =>
    rw [hresults, List.mem_singleton] at hx
    exact absurd hx (resultOf_ne_silent e hsilent)
  | stopped hresults =>
    rw [hresults, List.mem_singleton] at hx
    exact absurd hx (resultOf_ne_silent e rfl)

/-- What the outcomes of a run say is so. -/
structure Truthful (r : Run α β ε) : Prop where
  /-- Superseded are exactly those that go, while they wait for somebody, when a newer request
  for the same document comes. -/
  superseded : ∀ t, ⟨t, .error .superseded⟩ ∈ r.settled ↔
    ∃ p w work, (p, .enqueue w.key work) ∈ r.steps ∧ w ∈ p.queue.waiting ∧ w.ticket = t ∧
      t ∉ p.dropped ∧ t ∉ (p.next (.enqueue w.key work)).queue.tickets
  /-- What times out has waited for longer than the greatest age of that time. -/
  timedOut : ∀ p d t, (p, d) ∈ r.steps → ⟨t, .error .timedOut⟩ ∈ p.settles d →
    ∃ x ∈ p.requests, x.ticket = t ∧ p.queue.maxAge < p.now - x.since
  /-- What is superseded or times out never starts. -/
  unstarted : ∀ t e, ⟨t, .error e⟩ ∈ r.settled → e = .superseded ∨ e = .timedOut →
    ∀ x ∈ r.starts, x.ticket ≠ t
  /-- What starts has not waited for longer than the greatest age of that time. -/
  young : ∀ p d x, (p, d) ∈ r.steps → p.starting? d = some x →
    x ∈ p.requests ∧ p.now - x.since ≤ p.queue.maxAge
  /-- What is settled with the end of its work started once, ended once, in that way, and was
  not canceled. -/
  finished : ∀ t e, ⟨t, resultOf e⟩ ∈ r.settled →
    (∃ x, r.starts.filter (·.ticket = t) = [x]) ∧ r.ends.filter (·.1 = t) = [(t, e)] ∧
      t ∉ r.canceled

/-- A ticket is settled once at most; when the worker rests, each ticket that was given out and
not dropped is settled; and what the outcomes say is so. -/
theorem settled_once_and_truthful (r : Run α β ε) :
    (r.settled.map (·.ticket)).Nodup ∧
      (r.queue.working = false → ∀ x ∈ r.requests, x.ticket ∉ r.dropped →
        ∃ s ∈ r.settled, s.ticket = x.ticket) ∧
      r.Truthful := by
  refine ⟨r.settled_once, ?_, ?_⟩
  · intro hrest x hx hkept
    exact settled_of_rest hrest hx hkept
  · constructor
    · exact r.settled_superseded_iff
    · intro p d t _ h
      exact old_of_timedOut h
    · intro t e h he
      exact not_started h he
    · intro p d x _ h
      exact young_of_starting h
    · intro t e h
      exact once_of_resultOf h

/-- Two requests for one document, of which the second breaks down, and one that is canceled
while its work returns. -/
example :
    ([.enqueue ⟨"a.go"⟩ 1, .enqueue ⟨"a.go"⟩ 2, .start, .enqueue ⟨"b.go"⟩ 3, .endWork .panicked,
      .reap, .start, .cancel (· = ⟨"b.go"⟩), .endWork (.returned (.ok 0)),
      .reap].foldl Run.next (Run.start 30) : Run Nat Nat Nat).settled =
    [⟨0, .error .superseded⟩, ⟨1, .error .panicked⟩, ⟨2, .error .canceled⟩] := rfl

end Run

end RequestQueue

end SmellWatch
