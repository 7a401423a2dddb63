import SmellWatch.Proofs.Watch.OneText
/-! A service that is busy whenever it is called.

When every call is answered by asking for patience (`Run.FindsBusy`), an analysis ends as the
limit of its calls has it, or it ends unheard (`Run.OnlySubmits.noted_of_busy`).  Such a failure
is worth no notice, so what is told of a document that has one text is what the heuristics find
in it, and nothing else (`Run.OnlySubmits.told_of_busy`). -/

namespace SmellWatch

namespace Watch

variable {now : Duration} {id : DocumentId} {w : Watch} {r : Run} {e : Event} {content : String}

/-- The service was busy, and asked for patience. -/
def IsBusy (reply : Reply) : Prop := ∃ hint, reply = .returned (.error (.rateLimited hint))

/-- An event is no answer, or that of a busy service. -/
def Event.bringsBusy : Event → Bool
  | .answered _ (.returned (.error (.rateLimited _))) => true
  | .answered _ _ => false
  | _ => true

theorem Event.bringsBusy_answered {ticket : Nat} {reply : Reply} :
    (Event.answered ticket reply).bringsBusy = true ↔ IsBusy reply := by
  constructor
  · intro h
    unfold bringsBusy at h
    split at h
    · rename_i hreply
      cases hreply
      exact ⟨_, rfl⟩
    · cases h
    · rename_i hnone
      exact absurd rfl (hnone ticket reply)
  · rintro ⟨hint, rfl⟩
    rfl

theorem event_of_answer? {x : Answer} (h : w.answer? e = some x) :
    ∃ ticket, e = .answered ticket (.returned x.result) := by
  unfold answer? at h
  split at h
  · rename_i ticket result
    split at h
    · split at h
      · cases h
        exact ⟨ticket, rfl⟩
      · cases h
    · cases h
  · cases h

namespace Run

/-- The service was busy at every call. -/
def FindsBusy : Run → Prop
  | start _ _ _ => True
  | next r _ e => r.FindsBusy ∧ e.bringsBusy = true

instance decidableFindsBusy : (r : Run) → Decidable r.FindsBusy
  | start _ _ _ => isTrue trivial
  | next r _ e =>
    have := decidableFindsBusy r
    inferInstanceAs (Decidable (r.FindsBusy ∧ e.bringsBusy = true))

end Run

namespace Run

theorem FindsBusy.answers {r : Run} (h : r.FindsBusy) :
    ∀ x ∈ r.answers, ∃ hint, x.result = .error (.rateLimited hint) := by
  induction r with
  | start options config now => exact fun x hx => absurd hx List.not_mem_nil
  | next r now e ih =>
    intro x hx
    rcases List.mem_append.mp hx with hnew | hold
    · obtain ⟨ticket, he⟩ := event_of_answer? (Option.mem_toList.mp hnew)
      obtain ⟨hint, hreply⟩ := Event.bringsBusy_answered.mp (he ▸ h.2)
      exact ⟨hint, by injection hreply⟩
    · exact ih h.1 x hold

/-- No request that runs was told to stop. -/
theorem OnlySubmits.not_canceled (h : r.OnlySubmits)
    {x : RequestQueue.Running (List Finding) RemoteError} (hx : r.watch.queue.running = some x) :
    x.canceled = false := by
  rw [Bool.eq_false_iff]
  intro hstop
  exact h.not_wasCanceled (r.explained.stopped x hx hstop)

/-- The work of a request has ended with a busy service. -/
theorem OnlySubmits.ended_of_busy {r : Run} (h : r.OnlySubmits) (hbusy : r.FindsBusy) :
    ∀ x reply, r.watch.queue.running = some x → x.ended = some reply → IsBusy reply := by
  induction r with
  | start options config now => exact fun x reply hx => nomatch hx
  | next r now e ih =>
    have hpast := (onlySubmits_next.mp h).1
    intro x reply hx hended
    cases work_step now e r.watch with
    | goesOn hruns _ =>
      obtain ⟨y, hy, -, hsame, -⟩ := hruns x hx
      exact ih hpast hbusy.1 y reply hy (hsame.trans hended)
    | ends y a p last hrunning _ hqueue _ hreply hbroke =>
      rw [show (r.next now e).watch.queue = _ from hqueue] at hx
      obtain ⟨z, -, rfl⟩ := Option.map_eq_some_iff.mp hx
      obtain rfl : last = reply := Option.some.inj hended
      cases last with
      | panicked =>
        obtain ⟨ticket, he⟩ := hbroke rfl
        exact Event.bringsBusy_answered.mp (he ▸ hbusy.2)
      | returned result =>
        rcases hreply result rfl with ⟨hstop, -⟩ | hanswer
        · rw [hpast.not_canceled hrunning] at hstop
          cases hstop
        · obtain ⟨ticket, he⟩ := event_of_answer? hanswer
          exact Event.bringsBusy_answered.mp (he ▸ hbusy.2)
    | turns now' hqueue _ _ =>
      rw [show (r.next now e).watch.queue = _ from hqueue] at hx
      rcases RequestQueue.turn_running r.accounts.orderly now' hx with
        ⟨-, hran⟩ | ⟨_, _, _, _, hfresh, _⟩
      · exact ih hpast hbusy.1 x reply hran hended
      · rw [hfresh] at hended
        cases hended

end Run

/-! ## How analyses end -/

/-- An analysis ends unheard, or with a busy service. -/
inductive EndsBusy : Outcome → Prop
  | superseded : EndsBusy (.error .superseded)
  | timedOut : EndsBusy (.error .timedOut)
  | failed (hint : Option Duration) : EndsBusy (.error (.failed (.rateLimited hint)))

/-- No notice stands in front of what the heuristics find. -/
theorem EndsBusy.noticeFor {outcome : Outcome} (h : EndsBusy outcome) {x : RemoteError}
    (hverdict : verdict outcome = .failed x) (w : Watch) : w.noticeFor x = (none, w) := by
  cases h with
  | superseded => cases hverdict
  | timedOut => cases hverdict
  | failed hint =>
    cases hverdict
    rfl

theorem Run.OnlySubmits.noted_of_busy {r : Run} (h : r.OnlySubmits) (hbusy : r.FindsBusy) :
    ∀ o ∈ r.watch.owed, ∀ outcome, o.outcome = some outcome → EndsBusy outcome := by
  induction r with
  | start options config now => exact fun o ho => absurd ho List.not_mem_nil
  | next r now e ih =>
    obtain ⟨hpast, hsubmits⟩ := onlySubmits_next.mp h
    intro o' ho' outcome houtcome
    obtain ⟨o, ho, -, -, hwas | hcause⟩ := cause_step r now e ho' houtcome
    · exact ih hpast hbusy.1 o ho outcome hwas
    · cases hcause with
      | superseded => exact .superseded
      | late _ _ _ _ => exact .timedOut
      | canceled hcancels =>
        rw [Event.not_cancels_of_submits (hsubmits (Event.isOfEditor_of_cancels hcancels))]
          at hcancels
        cases hcancels
      | ended x reply hx _ hended =>
        obtain ⟨hint, rfl⟩ := hpast.ended_of_busy hbusy.1 x reply hx hended
        unfold RequestQueue.Running.result
        rw [hpast.not_canceled hx, if_neg Bool.false_ne_true]
        exact .failed hint

/-! ## What is told -/

/-- The service has found nothing, so nothing is cached. -/
theorem Run.FindsBusy.cache (h : r.FindsBusy) : r.watch.store.cache = [] := by
  rw [List.eq_nil_iff_forall_not_mem]
  intro c hc
  obtain ⟨a, raw, _, hbacking⟩ := r.backing_of_cached c hc
  obtain ⟨hint, hresult⟩ := h.answers _ hbacking.answer
  cases hresult

/-- What a step tells of a document that has one text is what the heuristics find in it. -/
theorem Run.OnlySubmits.told_of_busy_next (h : (r.next now e).OnlySubmits)
    (hone : (r.next now e).SaysOnly id content) (hbusy : r.FindsBusy) {findings : List Finding}
    (hin : (id, findings) ∈ (r.next now e).told) :
    findings = r.adopted.filter (Heuristics.scan id content) := by
  obtain ⟨hpast, hsubmits⟩ := onlySubmits_next.mp h
  have honce := (saysOnly_next hone).1
  have hpublished := mem_told.mp hin
  cases r.stride now e with
  | replayed doc s d gs hreads _ _ hcached _ _ _ _ _ _ hfx =>
    obtain ⟨_, c, -, hc, -⟩ := getCached?_eq_some hcached
    rw [cache_of_reads hreads, hbusy.cache] at hc
    cases hc
  | fellBack doc d a gs hopen _ _ _ _ _ _ _ _ hfx _ _ _ hscan =>
    rw [hfx] at hpublished
    obtain ⟨rfl, rfl⟩ : id = doc ∧ findings = gs := by simpa using hpublished
    rw [hscan, (inForce r).options, hpast.content_of_get? honce hopen]
  | answered o outcome d gs hfound houtcome _ _ _ _ _ _ _ hfx hlocal =>
    obtain ⟨rfl, rfl⟩ := eq_of_told_single hfx hin
    have ho := List.mem_of_find?_eq_some hfound
    have hends := hpast.noted_of_busy hbusy o ho outcome houtcome
    rcases hlocal with ⟨raw, rfl⟩ | ⟨x, hverdict, hfindings⟩
    · cases hends
    · obtain ⟨c, hc, -, hca, -⟩ := r.docket.caseOfOwed o ho
      have hcontent := (hpast.content_of_case honce c hc (by rw [Case.document, hca])).1
      rw [hca] at hcontent
      rw [hfindings, hends.noticeFor hverdict, (inForce r).options, hcontent]
      rfl
  | closed doc _ _ _ _ hevent =>
    subst hevent
    cases hsubmits rfl
  | begun doc d a _ _ _ _ _ _ _ _ _ _ htells =>
    exact absurd hpublished (not_published_of_tellsOf (htells id) findings)
  | still _ _ _ _ _ _ hfx => exact absurd hpublished (hfx.not_published id findings)
  | edited _ _ _ _ _ _ _ _ _ _ hfx => exact absurd hpublished (hfx.not_published id findings)
  | turned _ _ _ _ _ _ hfx => exact absurd hpublished (hfx.not_published id findings)
  | lapsed _ _ _ _ _ _ _ _ _ _ hfx => exact absurd hpublished (hfx.not_published id findings)
  | reconfigured _ _ _ _ _ _ _ hfx => exact absurd hpublished (hfx.not_published id findings)
  | configSet _ _ _ _ _ _ hfx =>
    rw [hfx] at hpublished
    exact absurd hpublished List.not_mem_nil
  | shutDown _ _ _ _ hfx => exact absurd hpublished (hfx.not_published id findings)

/-- All that a run tells of a document that has one text is what the heuristics find in it. -/
theorem Run.OnlySubmits.told_of_busy {r : Run} (h : r.OnlySubmits) (hone : r.SaysOnly id content)
    (hbusy : r.FindsBusy) :
    ∀ findings, (id, findings) ∈ r.tidings →
      findings = r.adopted.filter (Heuristics.scan id content) := by
  induction r with
  | start options config now => exact fun _ hin => absurd hin List.not_mem_nil
  | next r now e ih =>
    intro findings hin
    rw [h.adopted_next]
    rcases List.mem_append.mp hin with hnew | hold
    · exact h.told_of_busy_next hone hbusy.1 (List.mem_reverse.mp hnew)
    · exact ih (onlySubmits_next.mp h).1 (saysOnly_next hone).1 hbusy.1 findings hold

end Watch

end SmellWatch
