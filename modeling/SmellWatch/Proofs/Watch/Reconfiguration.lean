import SmellWatch.Proofs.Queue.Passage
import SmellWatch.Proofs.Store.Cache
import SmellWatch.Proofs.Watch.Calls
import SmellWatch.Proofs.Watch.Quiet
import SmellWatch.Proofs.Watch.Speech
/-! Other settings are followed once they are adopted.

What is said of the options that were adopted last (`Run.adopted`) is `Run.Follows`: when
calls are due, how long requests may wait, and by which rules, retry limits, service and
rate the analyses go that are begun.  It holds at the end of every run.

The age at which cached results expire is the exception: it stays as it was when the watch
was set up.  So look-ups follow the options adopted last exactly if that age is the same, or
nothing is cached for the text of a document (`follows_adopted`). -/

namespace SmellWatch

/-! ## Requests that have waited for too long -/

namespace RequestQueue

variable {α β ε : Type} {q : RequestQueue α β ε}

/-- Requests may wait for a certain time, and no longer. -/
structure AgesBy (q : RequestQueue α β ε) (age : Duration) : Prop where
  /-- When a request comes, those for other documents that have waited for too long go. -/
  swept : ∀ now key work, ∀ x ∈ q.waiting, x.key ≠ key →
    (x ∈ (q.enqueue now key work).queue.waiting ↔ now - x.since ≤ age) ∧
    (⟨x.ticket, .error .timedOut⟩ ∈ (q.enqueue now key work).settled ↔ age < now - x.since)
  /-- When the worker takes a turn and nothing runs, the requests in front that have waited
  for too long go, and the first that has not starts. -/
  turned : ∀ now, q.reap.1.running = none → ∃ passed,
    (∀ x ∈ passed, age < now - x.since) ∧
    (q.turn now).2.1 = q.reap.2 ++ passed.map (fun x => ⟨x.ticket, .error .timedOut⟩) ∧
    ((q.waiting = passed ∧ (q.turn now).2.2 = none) ∨
      ∃ x rest, q.waiting = passed ++ x :: rest ∧ now - x.since ≤ age ∧
        (q.turn now).2.2 = some x ∧ (q.turn now).1.waiting = rest)

theorem filterMap_reject {l : List (Waiting α)} (h : ∀ x ∈ l, x.abandoned = false)
    (e : QueueError ε) :
    l.filterMap (reject (β := β) e) = l.map fun x => ⟨x.ticket, .error e⟩ := by
  rw [← List.filterMap_eq_map]
  refine List.filterMap_congr fun x hx => ?_
  simp [reject, h x hx]

theorem agesBy (h : q.Orderly) : q.AgesBy q.maxAge where
  swept := by
    intro now key work x hx hkey
    have hreason : q.eviction? now key x =
        if q.maxAge < now - x.since then some .timedOut else none := by
      unfold eviction? isTooOld
      rw [if_neg hkey]
      simp
    constructor
    · have hwaits : x ∈ (q.enqueue now key work).queue.waiting ↔
          x ∈ q.waiting.filter fun x => (q.eviction? now key x).isNone := by
        refine List.mem_append.trans (or_iff_left fun hnew => ?_)
        exact hkey (by rw [List.mem_singleton.mp hnew])
      rw [hwaits, List.mem_filter, hreason]
      by_cases hold : q.maxAge < now - x.since
      · rw [if_pos hold]
        exact iff_of_false (fun h => nomatch h.2) (Nat.not_le_of_lt hold)
      · rw [if_neg hold]
        exact iff_of_true ⟨hx, rfl⟩ (Nat.le_of_not_lt hold)
    · rw [enqueue_settled, mem_evicted h]
      constructor
      · rintro ⟨y, hy, e, he, hsettled⟩
        obtain ⟨hticket, hresult⟩ := Settled.mk.inj hsettled
        obtain rfl := h.waiting_inj hx hy hticket
        by_contra hyoung
        rw [hreason, if_neg hyoung] at he
        cases he
      · intro hold
        exact ⟨x, hx, .timedOut, by rw [hreason, if_pos hold], rfl⟩
  turned := by
    intro now hidle
    have hwaiting := reap_waiting q
    have hheeded : ∀ x ∈ q.reap.1.waiting, x.abandoned = false :=
      fun x hx => h.waitingHeeded x (hwaiting ▸ hx)
    have hold : ∀ x ∈ q.reap.1.waiting, x.abandoned = true ∨ q.reap.1.isTooOld now x = true →
        q.maxAge < now - x.since := by
      intro x hx hpassed
      rcases hpassed with habandoned | hold
      · cases (hheeded x hx).symm.trans habandoned
      · rw [← q.reap_maxAge]
        exact of_decide_eq_true hold
    unfold turn
    simp only [hidle]
    cases startsNext now q.reap.1 with
    | rests hpassed heq =>
      refine ⟨q.waiting, fun x hx => ?_, ?_, .inl ⟨rfl, ?_⟩⟩
      · exact hold x (hwaiting.symm ▸ hx) (hpassed x (hwaiting.symm ▸ hx))
      · rw [heq, filterMap_reject hheeded, hwaiting]
      · rw [heq]
    | finds passed x rest hsplit hpassed _ hyoung heq =>
      have hmem : ∀ y ∈ passed, y ∈ q.reap.1.waiting :=
        fun y hy => hsplit ▸ List.mem_append_left _ hy
      refine ⟨passed, fun y hy => hold y (hmem y hy) (hpassed y hy), ?_,
        .inr ⟨x, rest, hwaiting.symm.trans hsplit, ?_, ?_, ?_⟩⟩
      · rw [heq, filterMap_reject fun y hy => hheeded y (hmem y hy)]
      · rw [← q.reap_maxAge]
        exact Nat.le_of_not_lt (of_decide_eq_false hyoung)
      · rw [heq]
      · rw [heq]

end RequestQueue

namespace Watch

variable {now : Duration} {id : DocumentId} {fp : Fingerprint} {w w' : Watch} {e : Event}
  {r : Run} {a : Analysis} {remote : Bool}

/-! ## Analyses that are begun -/

theorem begun?_fire (now : Duration) (id : DocumentId) (fp : Fingerprint) (w : Watch)
    (h : begun? (w.fire now id fp).2 = some (a, remote)) : ∃ d, a = w.analysisOf id d := by
  unfold fire at h
  split at h
  · rw [begun?_trigger] at h
    obtain ⟨d, -, hd⟩ := Option.map_eq_some_iff.mp h
    exact ⟨d, (congrArg Prod.fst hd).symm⟩
  · cases h

theorem begun?_deliverCached (now : Duration) (id : DocumentId) (fp : Fingerprint) (w : Watch) :
    begun? (w.deliverCached now id fp).2.2 = none := by
  unfold deliverCached
  split
  · rfl
  · split <;> rfl

/-- An analysis goes by the settings that are in force when it is begun. -/
theorem analysisOf_of_begun (hasks : w.Asks now e id fp)
    (h : begun? (w.step now e).2 = some (a, remote)) : ∃ i d, a = w.analysisOf i d := by
  rcases hasks with rfl | ⟨⟨timer, due, rfl⟩, -⟩
  · have hsame := sameSettings_flushed w id
    replace h : begun? (w.save now id).2 = some (a, remote) := h
    rw [save_eq] at h
    split at h
    · obtain ⟨d, rfl⟩ := begun?_fire now id _ _ h
      exact ⟨id, d, hsame.analysisOf_eq id d⟩
    · split at h
      · cases h
      · rename_i d _
        have hdelivered := inert_deliverCached now id d.fingerprint (w.flushed id)
        split at h
        · cases h
        · split at h
          · rename_i hd
            have hnone := begun?_deliverCached now id d.fingerprint (w.flushed id)
            rw [hd] at hnone
            cases hnone.symm.trans h
          · rename_i hd
            rw [hd] at hdelivered
            rw [begun?_trigger] at h
            obtain ⟨d, -, hd⟩ := Option.map_eq_some_iff.mp h
            refine ⟨id, d, (congrArg Prod.fst hd).symm.trans ?_⟩
            exact (hsame.trans hdelivered.toSameSettings).analysisOf_eq id d
  · unfold step run at h
    dsimp only at h
    split at h
    · cases h
    · unfold quiet at h
      split at h
      · cases h
      · split at h
        · cases h
        · obtain ⟨d, rfl⟩ := begun?_fire now id _ _ h
          exact ⟨id, d, (sameSettings_setDebouncer w id _).analysisOf_eq id d⟩

/-! ## Settings in force -/

namespace Run

/-- The options with which the watch was set up. -/
def initial : Run → WatchOptions
  | start options _ _ => options
  | next r _ _ => r.initial

/-- The options that were adopted last. -/
def adopted : Run → WatchOptions
  | start options _ _ => options
  | next r _ e => e.options?.getD r.adopted

/-- How often other options were adopted; the service is replaced each time. -/
def adoptions : Run → Nat
  | start _ _ _ => 0
  | next r _ e => r.adoptions + if e.isReconfigured then 1 else 0

/-- The rates of the token buckets. -/
def rates (r : Run) : List Nat := r.watch.buckets.map (·.capacity)

/-- The settings that were adopted last are in force, and buckets keep their rates. -/
structure InForce (r : Run) : Prop where
  options : r.watch.options = r.adopted
  service : r.watch.service = r.adoptions
  maxAge : r.watch.queue.maxAge = r.adopted.maxQueueAge
  rate : r.rates.getLast? = some (max 1 r.adopted.requestsPerMinute)

theorem inForce (r : Run) : r.InForce := by
  induction r with
  | start options config now => exact ⟨rfl, rfl, rfl, rfl⟩
  | next r now e ih =>
    obtain ⟨hoptions, hservice, hmaxAge, hrate⟩ := ih
    cases he : e.isReconfigured with
    | false =>
      have hsame : SameSettings r.watch (r.next now e).watch := sameSettings_step he
      have hadopted : (r.next now e).adopted = r.adopted := by
        cases e with
        | reconfigured options config => cases he
        | _ => rfl
      refine ⟨?_, ?_, ?_, ?_⟩
      · rw [hsame.options, hoptions, hadopted]
      · rw [hsame.service, hservice]
        simp [adoptions, he]
      · rw [hsame.maxAge, hmaxAge, hadopted]
      · unfold rates at hrate ⊢
        rw [hsame.rates, hrate, hadopted]
    | true =>
      cases e with
      | reconfigured options config =>
        have hsame : SameSettings (r.watch.adopting now options config)
            (r.next now (.reconfigured options config)).watch :=
          sameSettings_reconfigure now options config r.watch
        refine ⟨hsame.options, ?_, hsame.maxAge, ?_⟩
        · rw [hsame.service]
          exact congrArg (· + 1) hservice
        · unfold rates at hrate ⊢
          rw [hsame.rates]
          unfold adopting
          dsimp only
          split
          · rename_i hsame
            rw [hrate, ← hoptions, hsame]
            rfl
          · rw [List.map_append, List.getLast?_append]
            rfl
      | _ => cases he

/-- A bucket keeps its rate as long as the watch is there. -/
theorem rates_next (r : Run) (now : Duration) (e : Event) : r.rates <+: (r.next now e).rates := by
  unfold rates
  cases he : e.isReconfigured with
  | false =>
    have hsame : SameSettings r.watch (r.next now e).watch := sameSettings_step he
    exact ⟨[], (List.append_nil _).trans hsame.rates.symm⟩
  | true =>
    cases e with
    | reconfigured options config =>
      have hsame : SameSettings (r.watch.adopting now options config)
          (r.next now (.reconfigured options config)).watch :=
        sameSettings_reconfigure now options config r.watch
      rw [hsame.rates]
      unfold adopting
      dsimp only
      split
      · exact List.prefix_refl _
      · rw [List.map_append]
        exact List.prefix_append _ _
    | _ => cases he

end Run

/-- An analysis goes by these options. -/
structure GoesBy (a : Analysis) (o : WatchOptions) (service : Nat) (rates : List Nat) : Prop where
  rules : a.rules = o.rules
  policy : a.policy = o.retry
  service : a.service = service
  rate : rates[a.bucket]? = some (max 1 o.requestsPerMinute)

theorem Run.goesBy_of_begun (h : begun? (r.next now e).effects = some (a, remote)) :
    GoesBy a r.adopted r.adoptions r.rates := by
  obtain ⟨d, -, -, -, -, hasks⟩ := Run.begins h
  obtain ⟨i, d, rfl⟩ := analysisOf_of_begun hasks h
  obtain ⟨hoptions, hservice, -, hrate⟩ := r.inForce
  refine ⟨congrArg (·.rules) hoptions, congrArg (·.retry) hoptions, hservice, ?_⟩
  rw [List.getLast?_eq_getElem?] at hrate
  rw [← hrate]
  unfold rates
  rw [List.length_map]
  rfl

/-- Each analysis that was begun goes by the options that were in force then. -/
theorem Run.goesBy_of_mem {r : Run} {c : Case} (hc : c ∈ r.cases) :
    GoesBy c.analysis (r.asOf c.begunAt).adopted (r.asOf c.begunAt).adoptions r.rates := by
  induction r generalizing c with
  | start options config now => exact absurd hc List.not_mem_nil
  | next r now e ih =>
    have hpast : ∀ {a o n}, GoesBy a o n r.rates → GoesBy a o n (r.next now e).rates := by
      rintro a o n ⟨hrules, hpolicy, hservice, hrate⟩
      refine ⟨hrules, hpolicy, hservice, ?_⟩
      obtain ⟨hlt, -⟩ := List.getElem?_eq_some_iff.mp hrate
      obtain ⟨more, hmore⟩ := r.rates_next now e
      rw [← hmore, List.getElem?_append_left hlt]
      exact hrate
    rcases Run.mem_cases_next.mp hc with hnew | ⟨b, hb, rfl⟩
    · obtain ⟨a, remote, ha, rfl⟩ := Run.began?_eq_some.mp hnew
      rw [Run.asOf_next now e (Nat.le_refl _), Run.asOf_moment]
      exact hpast (goesBy_of_begun ha)
    · rw [Run.closing_begunAt, Run.closing_analysis,
        Run.asOf_next now e (Nat.le_of_lt (r.docket.past b hb))]
      exact hpast (ih hb)

/-! ## Calls on the service -/

/-- The analysis that runs is pursued by the limits it was begun with. -/
theorem Run.pursuit_policy {r : Run} {p : Pursuit} (h : r.watch.pursuit = some (a, p)) :
    p.policy = a.policy := by
  induction r generalizing a p with
  | start options config now => cases h
  | next r now e ih =>
    cases work_step now e r.watch with
    | goesOn _ hpursuit =>
      obtain ⟨q, hq, hpolicy⟩ := hpursuit a p h
      exact hpolicy.trans (ih hq)
    | ends _ _ _ _ _ _ _ hover _ => cases h.symm.trans hover
    | turns now' _ hidle hstarts =>
      cases hstarted : (r.watch.queue.turn now').2.2 with
      | none => exact ih ((hidle hstarted).symm.trans h)
      | some x =>
        obtain ⟨q, hq, hpolicy⟩ := hstarts x hstarted
        cases hq.symm.trans h
        exact hpolicy

/-- A call on the service is made for an analysis that was begun before, as the options say
that were in force then: by their limits, and with a token of a bucket with their rate. -/
structure CalledFor (r : Run) (now : Duration) (ticket : Nat) (a : Analysis) : Prop where
  begun : ∃ c ∈ r.cases, c.ticket = some ticket ∧ c.analysis = a ∧
    GoesBy a (r.asOf c.begunAt).adopted (r.asOf c.begunAt).adoptions r.rates
  pursued : ∃ p, r.watch.pursuit = some (a, p) ∧ p.policy = a.policy
  paid : ∃ b, r.watch.buckets[a.bucket]? = some b ∧ (b.tryTake now).1 = true

theorem Run.calledFor {ticket : Nat} (h : (ticket, a) ∈ (r.next now e).called) :
    CalledFor r now ticket a := by
  obtain ⟨t, rfl⟩ := goesOn_of_called h
  obtain ⟨⟨⟨x, hx, hticket, -⟩, p, hp⟩, hpaid⟩ := calls_goOn h
  subst hticket
  obtain ⟨o, ho, hot, -⟩ := (r.accounts.balanced x.ticket).mp
    (RequestQueue.mem_tickets.mpr (.inl ⟨x, hx, rfl⟩))
  obtain ⟨c, hc, hcticket, hca⟩ := r.docket.caseOfOwed o ho
  have hoa := r.backed.pursued x a p hx hp o ho hot
  obtain rfl : c.analysis = a := hca.1.trans hoa
  exact ⟨⟨c, hc, hcticket.trans (by rw [hot]), rfl, goesBy_of_mem hc⟩,
    ⟨p, hp, pursuit_policy hp⟩, hpaid⟩

/-! ## All of it -/

namespace Run

/-- The watch follows some options. -/
structure Follows (r : Run) (o : WatchOptions) : Prop where
  /-- A call that waits is due when the delay has passed. -/
  due : ∀ id p, r.watch.Waits id p → ∃ t, r.waitsSince? id = some t ∧ p.due = t + o.debounce
  /-- Its timer rings then and begins an analysis, unless one is under way. -/
  rings : ∀ now id d p, r.watch.debouncer? id = some d → d.pending = some p → p.due ≤ now →
    ∃ t x, d.timer = some t ∧ r.get? id = some x ∧ (x.inFlight = false → ∃ remote,
      begun? (r.next now (.ran (.debounce id t p.due))).effects =
        some (r.watch.analysisOf id x, remote))
  /-- An analysis is begun once the delay has passed, unless its document is saved; and it
  goes by these options. -/
  begins : ∀ now e a remote, begun? (r.next now e).effects = some (a, remote) →
    (e = .saved a.document ∨ ∃ t, r.waitsSince? a.document = some t ∧ t + o.debounce ≤ now) ∧
    GoesBy a o r.adoptions r.rates
  queue : r.watch.queue.AgesBy o.maxQueueAge

/-- Look-ups follow some options: they give what is cached if it is not too old. -/
def CacheFollows (r : Run) (o : WatchOptions) : Prop :=
  ∀ now, r.clock ≤ now → ∀ id findings, r.watch.store.getCached? now id = some findings ↔
    ∃ fp, r.text? id = some fp ∧ ∃ c ∈ r.watch.store.cache, c.key = r.key id fp ∧
      c.findings = findings ∧ now - c.storedAt ≤ o.cacheMaxAge

/-- The age at which results expire is the one with which the watch was set up. -/
theorem maxCacheAge (r : Run) : r.watch.store.maxCacheAge = r.initial.cacheMaxAge := by
  induction r with
  | start options config now => rfl
  | next r now e ih => exact (r.maxCacheAge_next now e).trans ih

/-- Look-ups follow the options with which the watch was set up. -/
theorem cacheFollows_initial (r : Run) : r.CacheFollows r.initial := by
  intro now _ id findings
  rw [DocumentStore.getCached?_eq_some_iff fun c hc d hd => r.distinct.eq_of_key hc hd]
  have hfresh : ∀ c, r.watch.store.isExpired now c = false ↔
      now - c.storedAt ≤ r.initial.cacheMaxAge := by
    intro c
    unfold DocumentStore.isExpired
    rw [decide_eq_false_iff_not, Nat.not_lt, r.maxCacheAge]
  constructor
  · rintro ⟨d, hd, c, hc, hkey, hfindings, hage⟩
    exact ⟨d.fingerprint, DocumentStore.text?_of_get? hd, c, hc, hkey, hfindings,
      (hfresh c).mp hage⟩
  · rintro ⟨fp, hfp, c, hc, hkey, hfindings, hage⟩
    obtain ⟨d, hd, rfl⟩ := DocumentStore.get?_of_text? hfp
    exact ⟨d, hd, c, hc, hkey, hfindings, (hfresh c).mpr hage⟩

/-- Look-ups follow other options exactly if these say the same about the age of results, or
what is cached for the texts of documents has expired by either. -/
theorem cacheFollows_iff (r : Run) (o : WatchOptions) :
    r.CacheFollows o ↔ r.initial.cacheMaxAge = o.cacheMaxAge ∨
      ∀ id fp, r.text? id = some fp → ∀ c ∈ r.watch.store.cache, c.key = r.key id fp →
        max r.initial.cacheMaxAge o.cacheMaxAge < r.clock - c.storedAt := by
  constructor
  · intro hfollows
    refine or_iff_not_imp_left.mpr fun hother id fp hfp c hc hkey => ?_
    refine Nat.lt_of_not_le fun hyoung => ?_
    -- by the greater age the result is still to be given at its end, by the other it is not
    have hend : r.clock ≤ c.storedAt + max r.initial.cacheMaxAge o.cacheMaxAge :=
      Nat.sub_le_iff_le_add'.mp hyoung
    have hgives : ∀ o', r.CacheFollows o' → (r.watch.store.getCached?
        (c.storedAt + max r.initial.cacheMaxAge o.cacheMaxAge) id = some c.findings ↔
          max r.initial.cacheMaxAge o.cacheMaxAge ≤ o'.cacheMaxAge) := by
      intro o' ho'
      rw [ho' _ hend id c.findings]
      constructor
      · rintro ⟨fp', hfp', d, hd, hdkey, -, hage⟩
        cases hfp.symm.trans hfp'
        cases r.distinct.eq_of_key hd hc (hdkey.trans hkey.symm)
        rwa [Nat.add_sub_cancel_left] at hage
      · intro hage
        exact ⟨fp, hfp, c, hc, hkey, rfl, by rwa [Nat.add_sub_cancel_left]⟩
    have hsame := (hgives _ r.cacheFollows_initial).symm.trans (hgives _ hfollows)
    rw [Nat.max_le, Nat.max_le, and_iff_right (Nat.le_refl _),
      and_iff_left (Nat.le_refl _)] at hsame
    rcases Nat.le_total r.initial.cacheMaxAge o.cacheMaxAge with hle | hle
    · exact hother (Nat.le_antisymm hle (hsame.mpr hle))
    · exact hother (Nat.le_antisymm (hsame.mp hle) hle)
  · intro h now hnow id findings
    rw [r.cacheFollows_initial now hnow id findings]
    refine exists_congr fun fp => and_congr_right fun hfp => exists_congr fun c =>
      and_congr_right fun hc => and_congr_right fun hkey => and_congr_right fun _ => ?_
    rcases h with hsame | hexpired
    · rw [hsame]
    · have hold := Nat.lt_of_lt_of_le (hexpired id fp hfp c hc hkey)
        (Nat.sub_le_sub_right hnow c.storedAt)
      obtain ⟨hinitial, hother⟩ := Nat.max_lt.mp hold
      exact iff_of_false (Nat.not_le_of_lt hinitial) (Nat.not_le_of_lt hother)

theorem rings {d : Debouncer Fingerprint} {p : Debouncer.Pending Fingerprint}
    (hd : r.watch.debouncer? id = some d) (hp : d.pending = some p) (hdue : p.due ≤ now) :
    ∃ t x, d.timer = some t ∧ r.get? id = some x ∧ (x.inFlight = false → ∃ remote,
      begun? (r.next now (.ran (.debounce id t p.due))).effects =
        some (r.watch.analysisOf id x, remote)) := by
  obtain ⟨x, hx, htext⟩ := DocumentStore.get?_of_text?
    (text?_of_pends (waits_of_debouncer? hd hp).pends)
  obtain ⟨t, ht, hring⟩ := (r.armed _ (mem_of_debouncer? hd)).exists_ring hp hdue
  refine ⟨t, x, ht, hx, fun hfree =>
    ⟨decide (r.watch.refused ≠ some r.watch.store.config), ?_⟩⟩
  have hsame := sameSettings_setDebouncer r.watch id { d with pending := none, timer := none }
  have hterms := sameTerms_setDebouncer r.watch id { d with pending := none, timer := none }
  show begun? (r.watch.run now (.debounce id t p.due)).2 = _
  unfold run quiet
  dsimp only
  rw [if_neg (Nat.not_lt.mpr hdue), hd]
  dsimp only
  rw [hring]
  dsimp only
  rw [fire_of_text (d := x) (by rw [setDebouncer_store]; exact hx) htext, begun?_trigger,
    setDebouncer_store, show r.watch.store.get? id = some x from hx]
  simp [Option.filter_some, hfree, hsame.analysisOf_eq, hterms.refused]

theorem follows (r : Run) : r.Follows r.adopted := by
  have hoptions := r.inForce.options
  refine ⟨fun id p hp => ?due, fun now id d p hd hp hdue => rings hd hp hdue,
    fun now e a remote ha => ⟨?quiet, goesBy_of_begun ha⟩, ?queue⟩
  case due =>
    rw [← hoptions]
    exact due_of_waits hp
  case quiet =>
    obtain ⟨d, -, -, -, -, hsaved | ⟨-, p, hp, -, hdue⟩⟩ := Run.begins ha
    · exact .inl hsaved
    · obtain ⟨t, ht, hpt⟩ := due_of_waits hp
      exact .inr ⟨t, ht, by rw [← hoptions, ← hpt]; exact hdue⟩
  case queue =>
    rw [← r.inForce.maxAge]
    exact RequestQueue.agesBy r.accounts.orderly

/-- A call that waits when other settings are adopted waits on. -/
theorem waitsOn (now : Duration) (options : WatchOptions) (config : Fingerprint)
    (h : r.watch.Awaits id fp) :
    (r.next now (.reconfigured options config)).watch.Awaits id fp := by
  obtain ⟨d, hd, rfl⟩ := DocumentStore.get?_of_text? (text?_of_pends h.pends)
  exact awaits_reconfigure now options config hd (.inl h)

end Run

/-- The watch follows the options that were adopted last, the calls that wait then included;
and the service is called for each analysis as those say that were in force when it was
begun.  Look-ups follow them exactly if the age at which results expire is the one with which
the watch was set up, or what is cached for the texts of documents has expired by either. -/
theorem follows_adopted (r : Run) :
    r.Follows r.adopted ∧
    (∀ now options config id fp, r.watch.Awaits id fp →
      (r.next now (.reconfigured options config)).watch.Awaits id fp) ∧
    (∀ now e ticket a, (ticket, a) ∈ (r.next now e).called → CalledFor r now ticket a) ∧
    (r.CacheFollows r.adopted ↔ r.initial.cacheMaxAge = r.adopted.cacheMaxAge ∨
      ∀ id fp, r.text? id = some fp → ∀ c ∈ r.watch.store.cache, c.key = r.key id fp →
        max r.initial.cacheMaxAge r.adopted.cacheMaxAge < r.clock - c.storedAt) :=
  ⟨r.follows, fun now options config _ _ h => r.waitsOn now options config h,
    fun _ _ _ _ h => Run.calledFor h, r.cacheFollows_iff r.adopted⟩

/-- A document was analyzed; then results are to expire after a second. -/
def Run.soonExpiring : Run :=
  answeredInTime.after
    [(Duration.ofMillis 800, .ran (.completion 0)),
      (Duration.ofMillis 900, .reconfigured (.ofConfig { analysis :=
        { requestsPerMinute := 60, rules := ["errors"], cacheMaxAgeSeconds := 1 } })
        ⟨"e76f3a43e0a9ab77"⟩)]

/-- After five seconds the result is still given. -/
theorem not_cacheFollows_soonExpiring :
    ¬ Run.soonExpiring.CacheFollows Run.soonExpiring.adopted := by
  intro hfollows
  have hgiven : Run.soonExpiring.watch.store.getCached? (Duration.ofSeconds 5) ⟨"a.go"⟩ =
      some [.basic "F1" "F1" .warning "F1"] := by decide +kernel
  obtain ⟨fp, -, c, hc, -, -, hage⟩ :=
    (hfollows (Duration.ofSeconds 5) (by decide +kernel) ⟨"a.go"⟩ _).mp hgiven
  have hold : ∀ c ∈ Run.soonExpiring.watch.store.cache,
      ¬ Duration.ofSeconds 5 - c.storedAt ≤ Run.soonExpiring.adopted.cacheMaxAge := by
    decide +kernel
  exact hold c hc hage

end Watch

end SmellWatch
