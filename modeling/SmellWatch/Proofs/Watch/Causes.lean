import SmellWatch.Proofs.Watch.Answers
import SmellWatch.Proofs.Watch.Settings
/-! Why analyses end as they do.

An outcome is noted at an analysis for one of four reasons (`Cause`): a newer request of its
document came, it had waited for too long, it was canceled, or its work ended.  So the silent
ends of a run have causes in the run (`Run.explained`): what timed out was late, and what
counts as canceled was canceled by the editor, or the service said that it was. -/

namespace SmellWatch

namespace RequestQueue

variable {α β ε : Type} {q : RequestQueue α β ε} {now : Duration} {s : Settled β ε}

/-! ## What is settled, and why -/

theorem late_of_startNext (hs : s ∈ (q.startNext now).2.1) :
    ∃ x ∈ q.waiting, x.ticket = s.ticket ∧ q.isTooOld now x = true ∧
      s.result = .error .timedOut := by
  obtain ⟨passed, hsettled, hpassed, -, hsplit⟩ := firstRunnable_splits q now q.waiting
  have hs : s ∈ (q.firstRunnable now q.waiting).1 := by
    unfold startNext at hs
    split at hs <;> (rename_i hf; rw [hf]; exact hs)
  rw [hsettled] at hs
  obtain ⟨x, hx, hxs⟩ := List.mem_filterMap.mp hs
  have hin : x ∈ q.waiting := hsplit ▸ List.mem_append_left _ hx
  unfold reject at hxs
  split at hxs
  · cases hxs
  · rename_i hheeded
    cases hxs
    exact ⟨x, hin, rfl, (hpassed x hx).resolve_left hheeded, rfl⟩

theorem ended_of_reap (hs : s ∈ q.reap.2) :
    ∃ x reply, q.running = some x ∧ x.ticket = s.ticket ∧ x.ended = some reply ∧
      s.result = x.result reply := by
  unfold reap at hs
  cases hr : q.running with
  | none => simp [hr] at hs
  | some x =>
    cases he : x.ended with
    | none => simp [hr, he] at hs
    | some reply =>
      simp only [hr, he] at hs
      split at hs
      · exact absurd hs List.not_mem_nil
      · rw [List.mem_singleton.mp hs]
        exact ⟨x, reply, rfl, rfl, he, rfl⟩

/-- In a turn the request is settled that has ended, and those that have waited for too
long. -/
theorem cause_of_turn (hs : s ∈ (q.turn now).2.1) :
    (∃ x reply, q.running = some x ∧ x.ticket = s.ticket ∧ x.ended = some reply ∧
      s.result = x.result reply) ∨
    ∃ x ∈ q.waiting, x.ticket = s.ticket ∧ q.isTooOld now x = true ∧
      s.result = .error .timedOut := by
  have hsplit : s ∈ q.reap.2 ∨ s ∈ (q.reap.1.startNext now).2.1 := by
    unfold turn at hs
    dsimp only at hs
    split at hs
    · exact .inl hs
    · exact List.mem_append.mp hs
  rcases hsplit with hs | hs
  · exact .inl (ended_of_reap hs)
  · obtain ⟨x, hx, hticket, hold, hresult⟩ := late_of_startNext hs
    rw [reap_waiting] at hx
    unfold isTooOld at hold
    rw [reap_maxAge] at hold
    exact .inr ⟨x, hx, hticket, hold, hresult⟩

/-- When a request comes, those are settled that it supersedes, and those that have waited
for too long. -/
theorem cause_of_enqueue {key : DocumentId} {work : α} (h : q.Orderly)
    (hs : s ∈ (q.enqueue now key work).settled) :
    s.result = .error .superseded ∨
    ∃ x ∈ q.waiting, x.ticket = s.ticket ∧ q.isTooOld now x = true ∧
      s.result = .error .timedOut := by
  rw [enqueue_settled, mem_evicted h] at hs
  obtain ⟨x, hx, e, he, rfl⟩ := hs
  unfold eviction? at he
  split at he
  · cases he
    exact .inl rfl
  · split at he
    · cases he
      exact .inr ⟨x, hx, rfl, ‹_›, rfl⟩
    · cases he

/-- A request that runs after a turn ran before, or was not told to stop. -/
theorem canceled_of_turn {x : Running β ε} (hx : (q.turn now).1.running = some x) :
    q.running = some x ∨ x.canceled = false := by
  unfold turn at hx
  dsimp only at hx
  split at hx
  · exact .inl (reap_running hx)
  · rename_i hnone
    unfold startNext at hx
    split at hx
    · rw [show q.reap.1.running = some x from hx] at hnone
      cases hnone
    · cases hx
      exact .inr rfl

theorem canceled_of_cancelWhere {wanted : DocumentId → Bool} (h : q.Orderly)
    (hs : s ∈ (q.cancelWhere wanted).settled) : s.result = .error .canceled := by
  rw [cancelWhere_settled, mem_evicted h] at hs
  obtain ⟨x, -, e, he, rfl⟩ := hs
  unfold cancellation? at he
  split at he <;> cases he
  rfl

end RequestQueue

namespace Watch

variable {now : Duration} {w : Watch} {e : Event} {r : Run} {c : Case}

/-! ## Causes in one step -/

/-- An event by which the editor cancels analyses. -/
def Event.cancels : Event → Bool
  | .closed _ | .shutDown => true
  | _ => false

/-- An event of the editor; the others come by and by. -/
def Event.isOfEditor : Event → Bool
  | .ran _ | .answered _ _ => false
  | _ => true

theorem Event.isOfEditor_of_cancels {e : Event} (h : e.cancels = true) : e.isOfEditor = true := by
  cases e <;> first | rfl | cases h

/-- Why an outcome is noted at the analysis of a ticket. -/
inductive Cause (now : Duration) (w : Watch) (e : Event) (ticket : Nat) : Outcome → Prop
  /-- A newer request of its document came. -/
  | superseded : Cause now w e ticket (.error .superseded)
  /-- It had waited for too long. -/
  | late (x : RequestQueue.Waiting Analysis) (hx : x ∈ w.queue.waiting)
      (hticket : x.ticket = ticket) (hold : w.queue.isTooOld now x = true) :
      Cause now w e ticket (.error .timedOut)
  | canceled (hevent : e.cancels = true) : Cause now w e ticket (.error .canceled)
  /-- Its work has ended. -/
  | ended (x : RequestQueue.Running (List Finding) RemoteError) (reply : Reply)
      (hx : w.queue.running = some x) (hticket : x.ticket = ticket)
      (hended : x.ended = some reply) : Cause now w e ticket (x.result reply)

theorem cause_of_turn {s : Settled} (hs : s ∈ (w.queue.turn now).2.1) :
    Cause now w e s.ticket s.result := by
  rcases RequestQueue.cause_of_turn hs with
    ⟨x, reply, hx, hticket, hended, hresult⟩ | ⟨x, hx, hticket, hold, hresult⟩
  · rw [hresult]
    exact .ended x reply hx hticket hended
  · rw [hresult]
    exact .late x hx hticket hold

theorem cause_of_enqueue {id : DocumentId} {a : Analysis} {s : Settled}
    (h : w.queue.Orderly) (hs : s ∈ (w.queue.enqueue now id a).settled) :
    Cause now w e s.ticket s.result := by
  rcases RequestQueue.cause_of_enqueue h hs with hresult | ⟨x, hx, hticket, hold, hresult⟩
  · rw [hresult]
    exact .superseded
  · rw [hresult]
    exact .late x hx hticket hold

theorem cause_of_cancelWhere {wanted : DocumentId → Bool} {s : Settled}
    (h : w.queue.Orderly) (hs : s ∈ (w.queue.cancelWhere wanted).settled)
    (hevent : e.cancels = true) : Cause now w e s.ticket s.result := by
  rw [RequestQueue.canceled_of_cancelWhere h hs]
  exact .canceled hevent

/-- An outcome that is there after a step was there before, or has a cause in the step. -/
theorem cause_step (r : Run) (now : Duration) (e : Event) {o' : Owed}
    (ho' : o' ∈ (r.next now e).watch.owed) {x : Outcome} (hx : o'.outcome = some x) :
    ∃ o ∈ r.watch.owed, o.ticket = o'.ticket ∧ o.analysis = o'.analysis ∧
      (o.outcome = some x ∨ Cause now r.watch e o.ticket x) := by
  have hkept : o' ∈ r.watch.owed → ∃ o ∈ r.watch.owed, o.ticket = o'.ticket ∧
      o.analysis = o'.analysis ∧ (o.outcome = some x ∨ Cause now r.watch e o.ticket x) :=
    fun ho => ⟨o', ho, rfl, rfl, .inl hx⟩
  have hsettled : ∀ settled, o' ∈ r.watch.owed.map (Owed.settledBy settled) →
      (∀ s ∈ settled, Cause now r.watch e s.ticket s.result) →
      ∃ o ∈ r.watch.owed, o.ticket = o'.ticket ∧ o.analysis = o'.analysis ∧
        (o.outcome = some x ∨ Cause now r.watch e o.ticket x) := by
    intro settled hmem hcause
    obtain ⟨o, ho, rfl⟩ := List.mem_map.mp hmem
    refine ⟨o, ho, (settledBy_ticket _ _).symm, (settledBy_analysis _ _).symm, ?_⟩
    rcases settledBy_outcome hx with hwas | ⟨s, hs, hso, rfl⟩
    · exact .inl hwas
    · exact .inr (hso ▸ hcause s hs)
  have horderly := r.accounts.orderly
  cases r.stride now e with
  | still _ howed => exact hkept (howed ▸ ho')
  | edited _ _ _ _ howed => exact hkept (howed ▸ ho')
  | replayed _ _ _ _ _ _ _ _ _ howed => exact hkept (howed ▸ ho')
  | begun _ _ _ _ _ _ _ howed =>
    rw [howed] at ho'
    rcases List.mem_append.mp ho' with ho' | ho'
    · exact hsettled _ ho' fun s hs => cause_of_enqueue horderly hs
    · rw [List.mem_singleton.mp ho'] at hx
      cases hx
  | fellBack _ _ _ _ _ _ _ _ howed => exact hkept (howed ▸ ho')
  | turned _ howed => exact hsettled _ (howed ▸ ho') fun s hs => cause_of_turn hs
  | answered _ _ _ _ _ _ _ _ _ howed => exact hkept (List.mem_filter.mp (howed ▸ ho')).1
  | lapsed _ _ _ _ _ _ howed => exact hkept (List.mem_filter.mp (howed ▸ ho')).1
  | closed _ _ howed _ _ hevent =>
    exact hsettled _ (howed ▸ ho') fun s hs => cause_of_cancelWhere horderly hs (hevent ▸ rfl)
  | reconfigured _ _ howed => exact hkept (howed ▸ ho')
  | configSet _ _ howed => exact hkept (howed ▸ ho')
  | shutDown _ howed _ hevent =>
    exact hsettled _ (howed ▸ ho') fun s hs => cause_of_cancelWhere horderly hs (hevent ▸ rfl)

/-! ## Causes in a run -/

namespace Run

/-- The request of a ticket was found to have waited for too long. -/
def WasLate (t : Nat) : Run → Prop
  | start _ _ _ => False
  | next r now _ => r.WasLate t ∨
      ∃ x ∈ r.watch.queue.waiting, x.ticket = t ∧ r.watch.queue.isTooOld now x = true

/-- What the editor has done, the oldest first. -/
def deeds : Run → List Event
  | start _ _ _ => []
  | next r _ e => r.deeds ++ if e.isOfEditor then [e] else []

theorem mem_deeds_next {x : Event} :
    x ∈ (r.next now e).deeds ↔ x ∈ r.deeds ∨ (e.isOfEditor = true ∧ x = e) := by
  show x ∈ r.deeds ++ (if e.isOfEditor then [e] else []) ↔ _
  cases e.isOfEditor <;> simp

/-- The editor has canceled analyses. -/
def WasCanceled (r : Run) : Prop := ∃ e ∈ r.deeds, e.cancels = true

theorem WasCanceled.next (h : r.WasCanceled) (now : Duration) (e : Event) :
    (r.next now e).WasCanceled := by
  obtain ⟨x, hx, hcancels⟩ := h
  exact ⟨x, mem_deeds_next.mpr (.inl hx), hcancels⟩

theorem wasCanceled_of_cancels (h : e.cancels = true) : (r.next now e).WasCanceled :=
  ⟨e, mem_deeds_next.mpr (.inr ⟨Event.isOfEditor_of_cancels h, rfl⟩), h⟩

/-- What an outcome of which nobody hears goes back to. -/
def Explains (r : Run) (ticket : Nat) (a : Analysis) : Outcome → Prop
  | .error .timedOut => r.WasLate ticket
  | .error .canceled => r.WasCanceled
  | .error (.failed .canceled) => r.WasCanceled ∨ ⟨a, .error .canceled⟩ ∈ r.answers
  | _ => True

theorem Explains.next {t : Nat} {a : Analysis} {x : Outcome} (h : r.Explains t a x)
    (now : Duration) (e : Event) : (r.next now e).Explains t a x := by
  unfold Explains at h ⊢
  split at h
  · exact .inl h
  · exact WasCanceled.next h now e
  · exact h.imp (·.next now e) (List.mem_append_right _)
  · trivial

end Run

/-- What is told to stop in a run was canceled, and the silent outcomes are explained. -/
structure Explained (r : Run) : Prop where
  stopped : ∀ x, r.watch.queue.running = some x → x.canceled = true → r.WasCanceled
  ended : ∀ x, r.watch.queue.running = some x →
    x.ended = some (.returned (.error .canceled)) → ∀ o ∈ r.watch.owed, o.ticket = x.ticket →
      r.Explains o.ticket o.analysis (.error (.failed .canceled))
  noted : ∀ o ∈ r.watch.owed, ∀ x, o.outcome = some x → r.Explains o.ticket o.analysis x

/-- A request that was told to stop was told so before, or the editor cancels. -/
theorem stopped_step (r : Run) (now : Duration) (e : Event)
    {x : RequestQueue.Running (List Finding) RemoteError}
    (hx : (r.next now e).watch.queue.running = some x) (hstop : x.canceled = true) :
    (∃ y, r.watch.queue.running = some y ∧ y.canceled = true) ∨ e.cancels = true := by
  have hsame : (r.next now e).watch.queue = r.watch.queue →
      (∃ y, r.watch.queue.running = some y ∧ y.canceled = true) ∨ e.cancels = true :=
    fun hqueue => .inl ⟨x, hqueue ▸ hx, hstop⟩
  cases r.stride now e with
  | still _ _ hqueue =>
    rcases hqueue with hqueue | ⟨reply, hqueue⟩
    · exact hsame hqueue
    · rw [hqueue] at hx
      obtain ⟨y, hy, rfl⟩ := Option.map_eq_some_iff.mp hx
      exact .inl ⟨y, hy, hstop⟩
  | edited _ _ _ _ _ hqueue => exact hsame hqueue
  | replayed _ _ _ _ _ _ _ _ _ _ hqueue => exact hsame hqueue
  | begun _ _ _ _ _ _ _ _ hqueue =>
    rw [hqueue] at hx
    exact .inl ⟨x, hx, hstop⟩
  | fellBack _ _ _ _ _ _ _ _ _ hqueue => exact hsame hqueue
  | turned _ _ hqueue =>
    rw [hqueue] at hx
    rcases RequestQueue.canceled_of_turn hx with hran | hfresh
    · exact .inl ⟨x, hran, hstop⟩
    · rw [hfresh] at hstop
      cases hstop
  | answered _ _ _ _ _ _ _ _ _ _ hqueue => exact hsame hqueue
  | lapsed _ _ _ _ _ _ _ hqueue => exact hsame hqueue
  | closed _ _ _ _ _ hevent => exact .inr (hevent ▸ rfl)
  | reconfigured _ _ _ hqueue =>
    obtain ⟨age, hqueue⟩ := hqueue
    rw [hqueue] at hx
    exact .inl ⟨x, hx, hstop⟩
  | configSet _ _ _ hqueue => exact hsame hqueue
  | shutDown _ _ _ hevent => exact .inr (hevent ▸ rfl)

namespace Explained

theorem start (options : WatchOptions) (config : Fingerprint) (now : Duration) :
    Explained (.start options config now) where
  stopped := fun _ hx => nomatch hx
  ended := fun _ hx => nomatch hx
  noted := fun _ ho => absurd ho List.not_mem_nil

section Next

variable (h : Explained r) (now : Duration) (e : Event)

include h

theorem stopped_next (x : RequestQueue.Running (List Finding) RemoteError)
    (hx : (r.next now e).watch.queue.running = some x) (hstop : x.canceled = true) :
    (r.next now e).WasCanceled := by
  rcases stopped_step r now e hx hstop with ⟨y, hy, hystop⟩ | hcancels
  · exact (h.stopped y hy hystop).next now e
  · exact Run.wasCanceled_of_cancels hcancels

theorem ended_next (x : RequestQueue.Running (List Finding) RemoteError)
    (hx : (r.next now e).watch.queue.running = some x)
    (hended : x.ended = some (.returned (.error .canceled))) (o' : Owed)
    (ho' : o' ∈ (r.next now e).watch.owed) (hticket : o'.ticket = x.ticket) :
    (r.next now e).Explains o'.ticket o'.analysis (.error (.failed .canceled)) := by
  obtain ⟨y, hy, o, ho, hot, hoa, hwas | ⟨hstop, -⟩ | hanswer⟩ :=
    r.backed.ended_back now e x _ hx hended o' ho' hticket
  · rw [← hoa]
    exact (h.ended y hy hwas o ho hot).next now e
  · exact .inl ((h.stopped y hy hstop).next now e)
  · refine .inr (List.mem_append_left _ ?_)
    rw [hanswer, hoa]
    exact List.mem_singleton_self _

/-- Each cause of a silent outcome explains it. -/
theorem explains_of_cause {o : Owed} (ho : o ∈ r.watch.owed) {x : Outcome}
    (hcause : Cause now r.watch e o.ticket x) : (r.next now e).Explains o.ticket o.analysis x := by
  cases hcause with
  | superseded => trivial
  | late y hy hticket hold => exact .inr ⟨y, hy, hticket, hold⟩
  | canceled hevent => exact Run.wasCanceled_of_cancels hevent
  | ended y reply hy hticket hended =>
    unfold RequestQueue.Running.result
    split
    · rename_i hstop
      exact (h.stopped y hy hstop).next now e
    · split
      · trivial
      · rename_i z
        cases z with
        | canceled => exact Run.Explains.next (h.ended y hy hended o ho hticket.symm) now e
        | _ => trivial
      · trivial

theorem noted_next (o' : Owed) (ho' : o' ∈ (r.next now e).watch.owed) (x : Outcome)
    (hx : o'.outcome = some x) : (r.next now e).Explains o'.ticket o'.analysis x := by
  obtain ⟨o, ho, hticket, hanalysis, hwas | hcause⟩ := cause_step r now e ho' hx
  · rw [← hticket, ← hanalysis]
    exact (h.noted o ho x hwas).next now e
  · rw [← hticket, ← hanalysis]
    exact h.explains_of_cause now e ho hcause

end Next

end Explained

/-- In every run the silent outcomes are explained. -/
theorem Run.explained (r : Run) : Explained r := by
  induction r with
  | start options config now => exact .start options config now
  | next r now e ih => exact ⟨ih.stopped_next now e, ih.ended_next now e, ih.noted_next now e⟩

/-- A case that has ended has a ticket, and what is noted as its end is explained. -/
theorem Run.explains_of_ending (r : Run) : ∀ c ∈ r.cases, ∀ x, c.ending = some x →
    ∃ t, c.ticket = some t ∧ r.Explains t c.analysis x.outcome := by
  induction r with
  | start options config now => exact fun _ hc => absurd hc List.not_mem_nil
  | next r now e ih =>
    intro c' hc' x hx
    rcases Run.mem_cases_next.mp hc' with hnew | ⟨c, hc, rfl⟩
    · obtain ⟨a, remote, -, rfl⟩ := Run.began?_eq_some.mp hnew
      cases hx
    · rw [Run.closing_ticket, Run.closing_analysis]
      by_cases hconcluded : ∃ t y, r.watch.concluded? e = some (t, y) ∧ c.ticket = some t
      · obtain ⟨t, y, hy, ht⟩ := hconcluded
        rw [Run.closing_of_concluded hy ht] at hx
        cases hx
        obtain ⟨o, ho, rfl, houtcome⟩ := owed_of_concluded? hy
        rw [(r.docket.eq_analysis ho hc ht).1]
        exact ⟨o.ticket, ht, (r.explained.noted o ho y houtcome).next now e⟩
      · rw [Run.closing_of_ne fun t y hy ht => hconcluded ⟨t, y, hy, ht⟩] at hx
        obtain ⟨t, ht, hexplains⟩ := ih c hc x hx
        exact ⟨t, ht, hexplains.next now e⟩

end Watch

end SmellWatch
