import SmellWatch.Proofs.Pacing.Pursuit
import SmellWatch.Proofs.Watch.Docket
/-! What the service answered, and what is taken for its answer.

The answers of a run are read off its events (`Run.answers`).  `Work` tells what one step
does to the running analysis: it goes on, its work ends, or the worker takes a turn.  From
it follows that no answer is made up and none is mixed up (`Run.backed`): an analysis
that is concluded as its work returned was answered so by the service, or was canceled
(`Run.heard_of_concluded`). -/

namespace SmellWatch

namespace Watch

variable {now : Duration} {w w' w₁ : Watch} {e : Event} {r : Run}

/-! ## Answers -/

/-- What the service said to a call that was made for an analysis. -/
structure Answer where
  analysis : Analysis
  result : Except RemoteError (List Finding)

/-- The answer that an event brings to the call that is in progress. -/
def answer? (w : Watch) : Event → Option Answer
  | .answered ticket (.returned result) =>
    match w.queue.running, w.pursuit with
    | some x, some (a, p) =>
      if x.ticket = ticket ∧ p.phase = .calling then some ⟨a, result⟩ else none
    | _, _ => none
  | _ => none

namespace Run

/-- The answers of the service, the newest first. -/
def answers : Run → List Answer
  | start _ _ _ => []
  | next r _ e => (r.watch.answer? e).toList ++ r.answers

/-- The service answered an analysis so, or the analysis was canceled. -/
def Heard (r : Run) (a : Analysis) (result : Except RemoteError (List Finding)) : Prop :=
  result = .error .canceled ∨ ⟨a, result⟩ ∈ r.answers

theorem Heard.next {a : Analysis} {result : Except RemoteError (List Finding)}
    (h : r.Heard a result) (now : Duration) (e : Event) : (r.next now e).Heard a result := by
  rcases h with h | h
  · exact .inl h
  · exact .inr (List.mem_append_right _ h)

theorem heard_of_answer? {a : Analysis} {result : Except RemoteError (List Finding)}
    (h : r.watch.answer? e = some ⟨a, result⟩) : (r.next now e).Heard a result := by
  refine .inr (List.mem_append_left _ ?_)
  rw [h]
  exact List.mem_singleton_self _

end Run

/-! ## The running analysis, step by step -/

/-- What a step does to the running analysis. -/
inductive Work (w : Watch) (e : Event) (w' : Watch) : Prop
  | goesOn (hruns : w.queue.RunsOn w'.queue)
      (hpursuit : ∀ a p', w'.pursuit = some (a, p') →
        ∃ p, w.pursuit = some (a, p) ∧ p'.policy = p.policy)
  /-- Its work ends: the call broke down, it was canceled, or the service has answered. -/
  | ends (x : RequestQueue.Running (List Finding) RemoteError) (a : Analysis) (p : Pursuit)
      (reply : Reply) (hrunning : w.queue.running = some x) (hpursuit : w.pursuit = some (a, p))
      (hqueue : w'.queue = w.queue.finish reply) (hover : w'.pursuit = none)
      (hreply : ∀ result, reply = .returned result →
        (x.canceled = true ∧ result = .error .canceled) ∨ w.answer? e = some ⟨a, result⟩)
      (hbroke : reply = .panicked → ∃ ticket, e = .answered ticket .panicked)
  /-- The worker takes a turn, and may start the next one. -/
  | turns (now : Duration) (hqueue : w'.queue = (w.queue.turn now).1)
      (hidle : (w.queue.turn now).2.2 = none → w'.pursuit = w.pursuit)
      (hstarts : ∀ y, (w.queue.turn now).2.2 = some y →
        ∃ p, w'.pursuit = some (y.work, p) ∧ p.policy = y.work.policy)

theorem SameTerms.work (h : SameTerms w w') : Work w e w' :=
  .goesOn h.runs fun _ p hp => ⟨p, h.pursuit ▸ hp, rfl⟩

theorem work_follow {x : RequestQueue.Running (List Finding) RemoteError} {a : Analysis}
    {p : Pursuit} (hqueue : w₁.queue = w.queue) (hrunning : w.queue.running = some x)
    (hpursuit : w.pursuit = some (a, p)) (ticket : Nat) (next : Pursuit.Next (List Finding))
    (p' : Pursuit) (hpolicy : p'.policy = p.policy) (hends : ∀ result, next = .ends result →
      (x.canceled = true ∧ result = .error .canceled) ∨ w.answer? e = some ⟨a, result⟩) :
    Work w e (w₁.follow ticket a next p').1 := by
  have hgoes : ∀ w' : Watch, w'.queue = w₁.queue → w'.pursuit = some (a, p') → Work w e w' := by
    intro w' hq hp
    refine .goesOn (.of_eq (by rw [hq, hqueue])) fun b q hb => ?_
    rw [hp] at hb
    cases hb
    exact ⟨p, hpursuit, hpolicy⟩
  cases next with
  | sleeps time => exact hgoes _ rfl rfl
  | calls => exact hgoes _ rfl rfl
  | ends result =>
    refine .ends x a p (.returned result) hrunning hpursuit ?_ rfl ?_ fun h => nomatch h
    · rw [← hqueue]
      rfl
    · intro y hy
      cases hy
      exact hends result rfl

theorem work_goOn (now : Duration) (ticket : Nat) (w : Watch) :
    Work w e (w.goOn now ticket).1 := by
  unfold goOn
  split
  · rename_i x a p hrunning hpursuit
    split
    · exact (SameTerms.refl w).work
    · split
      · exact (SameTerms.refl w).work
      · rename_i next p' w₁ hdraw
        obtain ⟨buckets, hw⟩ := drawOn_eq hdraw
        obtain ⟨b, -, hb⟩ := Option.map_eq_some_iff.mp hdraw
        have hnext : next = (p.resume now x.canceled b).1 := (congrArg (·.1.1) hb).symm
        have hp : p' = (p.resume now x.canceled b : Pursuit.Next (List Finding) × _).2.1 :=
          (congrArg (·.1.2) hb).symm
        refine work_follow (hw ▸ rfl) hrunning hpursuit ticket next p'
          (hp ▸ Pursuit.resume_keeps.1) fun result hresult => ?_
        exact .inl (Pursuit.resume_ends (hnext.symm.trans hresult))
  · exact (SameTerms.refl w).work

theorem work_answered (now : Duration) (ticket : Nat) (reply : Reply) (w : Watch) :
    Work w (.answered ticket reply) (w.answered now ticket reply).1 := by
  unfold answered
  split
  · rename_i x a p hrunning hpursuit
    split
    · exact (SameTerms.refl w).work
    · rename_i hcall
      obtain ⟨hticket, hphase⟩ : x.ticket = ticket ∧ p.phase = .calling := by
        simpa only [not_or, Decidable.not_not] using hcall
      cases reply with
      | panicked =>
        exact .ends x a p .panicked hrunning hpursuit rfl rfl (fun _ h => nomatch h)
          fun _ => ⟨ticket, rfl⟩
      | returned answer =>
        refine work_follow rfl hrunning hpursuit ticket _ _ (Pursuit.answered_policy answer)
          fun result hresult => ?_
        rcases Pursuit.answered_ends hresult with h | h
        · exact .inl h
        · refine .inr ?_
          unfold answer?
          rw [hrunning, hpursuit]
          exact (if_pos ⟨hticket, hphase⟩).trans (by rw [h])
  · exact (SameTerms.refl w).work

theorem work_takeTurn (now : Duration) (w : Watch) : Work w e (w.takeTurn now).1 := by
  unfold takeTurn
  split
  · exact (SameTerms.refl w).work
  · rcases hq : w.queue.turn now with ⟨queue, settled, started⟩
    have hqueue : queue = (w.queue.turn now).1 := by rw [hq]
    have hstarted : (w.queue.turn now).2.2 = started := by rw [hq]
    dsimp only
    cases started with
    | none =>
      refine .turns now hqueue (fun _ => rfl) fun y hy => ?_
      rw [hstarted] at hy
      cases hy
    | some x =>
      refine .turns now hqueue (fun hnone => ?_) fun y hy => ?_
      · rw [hstarted] at hnone
        cases hnone
      · rw [hstarted] at hy
        cases hy
        exact ⟨_, rfl, rfl⟩

theorem work_complete (now : Duration) (ticket : Nat) (w : Watch) :
    Work w e (w.complete now ticket).1 := by
  have hconclude : ∀ (a : Analysis) (o : Outcome) (w₁ : Watch),
      (w₁.conclude now a o).1.queue = w₁.queue ∧ (w₁.conclude now a o).1.pursuit = w₁.pursuit := by
    intro a o w₁
    unfold conclude
    cases verdict o with
    | found findings =>
      dsimp only
      split <;> exact ⟨rfl, rfl⟩
    | failed x =>
      obtain ⟨lead, refused, hn⟩ := noticeFor_eq x w₁
      dsimp only
      rw [hn]
      unfold fallBack
      dsimp only
      split <;> exact ⟨rfl, rfl⟩
    | dropped => exact ⟨rfl, rfl⟩
  unfold complete
  split
  · exact (SameTerms.refl w).work
  · rename_i o _
    split
    · exact (SameTerms.refl w).work
    · rename_i outcome _
      obtain ⟨hqueue, hpursuit⟩ := hconclude o.analysis outcome
        { w with owed := w.owed.filter (·.ticket ≠ ticket) }
      exact .goesOn (.of_eq (by rw [hqueue])) fun a p hp => ⟨p, hpursuit ▸ hp, rfl⟩

/-- What every step does to the running analysis. -/
theorem work_step (now : Duration) (e : Event) (w : Watch) : Work w e (w.step now e).1 := by
  cases e with
  | opened id content => exact (sameTerms_update now id content w).work
  | changed id content => exact (sameTerms_update now id content w).work
  | saved id => exact (sameTerms_save now id w).work
  | closed id => exact (sameTerms_close now id w).work
  | reconfigured options config =>
    have hsame := sameTerms_reconfigure now options config w
    exact .goesOn hsame.runs fun _ p hp => ⟨p, hsame.pursuit ▸ hp, rfl⟩
  | configSet config => exact (sameTerms_configSet config w).work
  | shutDown => exact (sameTerms_shutDown w).work
  | ran t =>
    cases t with
    | debounce id timer due =>
      unfold step run
      dsimp only
      split
      · exact (SameTerms.refl w).work
      · exact (sameTerms_quiet now id timer w).work
    | worker => exact work_takeTurn now w
    | work ticket => exact work_goOn now ticket w
    | completion ticket => exact work_complete now ticket w
  | answered ticket reply => exact work_answered now ticket reply w

/-! ## Nothing is made up or mixed up -/

/-- Each request works on the analysis that is owed under its ticket, and what is noted as
returned for an analysis was heard. -/
structure Backed (r : Run) : Prop where
  waiting : ∀ x ∈ r.watch.queue.waiting, ∀ o ∈ r.watch.owed, o.ticket = x.ticket →
    o.analysis = x.work
  pursued : ∀ x a p, r.watch.queue.running = some x → r.watch.pursuit = some (a, p) →
    ∀ o ∈ r.watch.owed, o.ticket = x.ticket → o.analysis = a
  ended : ∀ x result, r.watch.queue.running = some x → x.ended = some (.returned result) →
    ∀ o ∈ r.watch.owed, o.ticket = x.ticket → r.Heard o.analysis result
  noted : ∀ o ∈ r.watch.owed, ∀ result,
    o.outcome = some (RequestQueue.ofReturn result) → r.Heard o.analysis result

/-- What is owed under the ticket of a request that is not new was owed before. -/
theorem owed_of_next {o' : Owed} (ho' : o' ∈ (r.next now e).watch.owed)
    (hold : o'.ticket < r.watch.queue.nextTicket) :
    ∃ o ∈ r.watch.owed, o.ticket = o'.ticket ∧ o.analysis = o'.analysis := by
  rcases (owedStep_step r now e).back o' ho' with ⟨a, -, rfl⟩ | ⟨o, ho, hticket, hanalysis, -⟩
  · exact absurd hold (Nat.lt_irrefl _)
  · exact ⟨o, ho, hticket, hanalysis⟩

namespace Backed

theorem start (options : WatchOptions) (config : Fingerprint) (now : Duration) :
    Backed (.start options config now) where
  waiting := fun _ hx => absurd hx List.not_mem_nil
  pursued := fun _ _ _ hx => nomatch hx
  ended := fun _ _ hx => nomatch hx
  noted := fun _ ho => absurd ho List.not_mem_nil

section Next

variable (h : Backed r) (now : Duration) (e : Event)

include h

theorem waiting_next (x : RequestQueue.Waiting Analysis)
    (hx : x ∈ (r.next now e).watch.queue.waiting) (o' : Owed)
    (ho' : o' ∈ (r.next now e).watch.owed) (hticket : o'.ticket = x.ticket) :
    o'.analysis = x.work := by
  have hkept : x ∈ r.watch.queue.waiting → o'.analysis = x.work := by
    intro hold
    have hlt := r.accounts.orderly.issued x.ticket
      (RequestQueue.mem_tickets.mpr (.inr ⟨x, hold, rfl⟩))
    obtain ⟨o, ho, hot, hoa⟩ := owed_of_next ho' (hticket ▸ hlt)
    rw [← hoa]
    exact h.waiting x hold o ho (hot.trans hticket)
  cases (r.stride now e).booking r.accounts.orderly with
  | settled settled hqueue _ _ _ _ _ => exact hkept (hqueue.waits x hx)
  | completed _ _ _ _ hqueue _ _ _ => exact hkept (hqueue ▸ hx)
  | queued a hqueue howed _ _ _ =>
    rw [hqueue, RequestQueue.enqueue_queue] at hx
    rcases List.mem_append.mp hx with hx | hx
    · exact hkept (List.mem_filter.mp hx).1
    · rw [List.mem_singleton.mp hx] at hticket ⊢
      rw [howed] at ho'
      rcases List.mem_append.mp ho' with ho' | ho'
      · -- what was owed before has an older ticket
        obtain ⟨o, ho, rfl⟩ := List.mem_map.mp ho'
        rw [settledBy_ticket] at hticket
        have := r.accounts.issued o ho
        simp only at hticket
        omega
      · rw [List.mem_singleton.mp ho']

theorem pursued_next (x : RequestQueue.Running (List Finding) RemoteError) (a : Analysis)
    (p : Pursuit) (hx : (r.next now e).watch.queue.running = some x)
    (ha : (r.next now e).watch.pursuit = some (a, p)) (o' : Owed)
    (ho' : o' ∈ (r.next now e).watch.owed) (hticket : o'.ticket = x.ticket) :
    o'.analysis = a := by
  have hkept : ∀ y q, r.watch.queue.running = some y → y.ticket = x.ticket →
      r.watch.pursuit = some (a, q) → o'.analysis = a := by
    intro y q hy hyx hq
    have hlt := r.accounts.orderly.issued y.ticket
      (RequestQueue.mem_tickets.mpr (.inl ⟨y, hy, rfl⟩))
    obtain ⟨o, ho, hot, hoa⟩ := owed_of_next ho' (by omega)
    rw [← hoa]
    exact h.pursued y a q hy hq o ho (by omega)
  cases work_step now e r.watch with
  | goesOn hruns hpursuit =>
    obtain ⟨y, hy, hyx, -⟩ := hruns x hx
    obtain ⟨q, hq, -⟩ := hpursuit a p ha
    exact hkept y q hy hyx hq
  | ends _ _ _ _ _ _ _ hover _ =>
    rw [show (r.next now e).watch.pursuit = none from hover] at ha
    cases ha
  | turns now' hqueue hidle hstarts =>
    rw [show (r.next now e).watch.queue = _ from hqueue] at hx
    rcases RequestQueue.turn_running r.accounts.orderly now' hx with
      ⟨hnone, hran⟩ | ⟨y, hy, hstarted, hyx, -⟩
    · exact hkept x p hran rfl ((hidle hnone).symm.trans ha)
    · obtain ⟨q, hq, -⟩ := hstarts y hstarted
      rw [show (r.next now e).watch.pursuit = _ from hq] at ha
      cases ha
      have hlt := r.accounts.orderly.issued y.ticket
        (RequestQueue.mem_tickets.mpr (.inr ⟨y, hy, rfl⟩))
      obtain ⟨o, ho, hot, hoa⟩ := owed_of_next ho' (by omega)
      rw [← hoa]
      exact h.waiting y hy o ho (by omega)

/-- Work that has returned after a step had returned before, or has just been canceled or
answered. -/
theorem ended_back (x : RequestQueue.Running (List Finding) RemoteError)
    (result : Except RemoteError (List Finding))
    (hx : (r.next now e).watch.queue.running = some x)
    (hended : x.ended = some (.returned result)) (o' : Owed)
    (ho' : o' ∈ (r.next now e).watch.owed) (hticket : o'.ticket = x.ticket) :
    ∃ y, r.watch.queue.running = some y ∧
      ∃ o ∈ r.watch.owed, o.ticket = y.ticket ∧ o.analysis = o'.analysis ∧
        (y.ended = some (.returned result) ∨ (y.canceled = true ∧ result = .error .canceled) ∨
          r.watch.answer? e = some ⟨o.analysis, result⟩) := by
  have hback : ∀ y, r.watch.queue.running = some y → y.ticket = x.ticket →
      ∃ o ∈ r.watch.owed, o.ticket = y.ticket ∧ o.analysis = o'.analysis := by
    intro y hy hyx
    have hlt := r.accounts.orderly.issued y.ticket
      (RequestQueue.mem_tickets.mpr (.inl ⟨y, hy, rfl⟩))
    obtain ⟨o, ho, hot, hoa⟩ := owed_of_next ho' (by omega)
    exact ⟨o, ho, by omega, hoa⟩
  cases work_step now e r.watch with
  | goesOn hruns _ =>
    obtain ⟨y, hy, hyx, hsame, -⟩ := hruns x hx
    obtain ⟨o, ho, hot, hoa⟩ := hback y hy hyx
    exact ⟨y, hy, o, ho, hot, hoa, .inl (hsame.trans hended)⟩
  | ends y a p reply hrunning hpursuit hqueue _ hreply =>
    rw [show (r.next now e).watch.queue = _ from hqueue] at hx
    obtain ⟨z, hz, rfl⟩ := Option.map_eq_some_iff.mp hx
    rw [hrunning] at hz
    cases hz
    obtain ⟨o, ho, hot, hoa⟩ := hback y hrunning rfl
    refine ⟨y, hrunning, o, ho, hot, hoa, .inr ?_⟩
    rw [h.pursued y a p hrunning hpursuit o ho hot]
    exact hreply result (Option.some.inj hended)
  | turns now' hqueue _ _ =>
    rw [show (r.next now e).watch.queue = _ from hqueue] at hx
    rcases RequestQueue.turn_running r.accounts.orderly now' hx with
      ⟨-, hran⟩ | ⟨y, -, -, -, hfresh, -⟩
    · obtain ⟨o, ho, hot, hoa⟩ := hback x hran rfl
      exact ⟨x, hran, o, ho, hot, hoa, .inl hended⟩
    · rw [hfresh] at hended
      cases hended

theorem ended_next (x : RequestQueue.Running (List Finding) RemoteError)
    (result : Except RemoteError (List Finding))
    (hx : (r.next now e).watch.queue.running = some x)
    (hended : x.ended = some (.returned result)) (o' : Owed)
    (ho' : o' ∈ (r.next now e).watch.owed) (hticket : o'.ticket = x.ticket) :
    (r.next now e).Heard o'.analysis result := by
  obtain ⟨y, hy, o, ho, hot, hoa, hwas | ⟨-, hcanceled⟩ | hanswer⟩ :=
    h.ended_back now e x result hx hended o' ho' hticket
  · rw [← hoa]
    exact (h.ended y result hy hwas o ho hot).next now e
  · exact .inl hcanceled
  · rw [← hoa]
    exact Run.heard_of_answer? hanswer

theorem noted_next (o' : Owed) (ho' : o' ∈ (r.next now e).watch.owed)
    (result : Except RemoteError (List Finding))
    (houtcome : o'.outcome = some (RequestQueue.ofReturn result)) :
    (r.next now e).Heard o'.analysis result := by
  obtain ⟨o, ho, -, hoa, hwas | ⟨x, hx, hxo, hended⟩⟩ :=
    (owedStep_step r now e).returned o' ho' result houtcome
  · rw [← hoa]
    exact (h.noted o ho result hwas).next now e
  · rw [← hoa]
    exact (h.ended x result hx hended o ho hxo.symm).next now e

end Next

end Backed

/-- In every run what is noted as returned was heard. -/
theorem Run.backed (r : Run) : Backed r := by
  induction r with
  | start options config now => exact .start options config now
  | next r now e ih =>
    exact ⟨ih.waiting_next now e, ih.pursued_next now e, ih.ended_next now e, ih.noted_next now e⟩

/-- An analysis that is concluded as its work returned was answered so by the service, or
was canceled. -/
theorem Run.heard_of_concluded {t : Nat} {result : Except RemoteError (List Finding)}
    (h : r.watch.concluded? e = some (t, RequestQueue.ofReturn result)) :
    ∃ c, r.caseOf? t = some c ∧ r.Heard c.analysis result := by
  obtain ⟨o, ho, rfl, houtcome⟩ := owed_of_concluded? h
  obtain ⟨c, hc, hca⟩ := caseOf?_of_owed ho
  refine ⟨c, hc, ?_⟩
  rw [hca]
  exact r.backed.noted o ho result houtcome

end Watch

end SmellWatch
