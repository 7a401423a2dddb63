import SmellWatch.Proofs.Watch.Waiting
/-! The kinds of steps of a watch.

`Stride` tells, for each kind of step, what becomes of the documents, of the queue and
what is owed, and of the calls that wait for a document to be left alone.

How a part of a step behaves is said once, beside the part: `deliverCached_of_some`,
`trigger_remote` and so on.  An analysis is triggered when a document is saved and when the timer
of a call rings; what such a step is, is said here for both (`stride_trigger`, `stride_fire`). -/

namespace SmellWatch

namespace Watch

variable {now : Duration} {id other : DocumentId} {fp : Fingerprint}

/-! ## Effects -/

/-- No analysis is begun and no findings are told. -/
def Tacit (fx : List Effect) : Prop := begun? fx = none ∧ ∀ id, tellsOf id fx = false

theorem tacit_nil : Tacit [] := ⟨rfl, fun _ => rfl⟩

theorem Tacit.append {fx gx : List Effect} (h : Tacit fx) (k : Tacit gx) : Tacit (fx ++ gx) := by
  obtain ⟨hb, ht⟩ := h
  obtain ⟨kb, kt⟩ := k
  refine ⟨?_, fun id => ?_⟩
  · unfold begun? at hb kb ⊢
    rw [List.findSome?_append, hb, kb]
    rfl
  · have h1 := ht id
    have h2 := kt id
    unfold tellsOf at h1 h2 ⊢
    rw [List.any_append, h1, h2]
    rfl

theorem not_published_of_tellsOf {fx : List Effect} (h : tellsOf id fx = false)
    (findings : List Finding) : Effect.published id findings ∉ fx := by
  intro hmem
  have htells : tellsOf id fx = true := by
    unfold tellsOf
    exact List.any_eq_true.mpr ⟨_, hmem, by simp [Effect.tellsOf]⟩
  rw [h] at htells
  cases htells

theorem Tacit.not_published {fx : List Effect} (h : Tacit fx) (id : DocumentId)
    (findings : List Finding) : Effect.published id findings ∉ fx :=
  not_published_of_tellsOf (h.2 id) findings

theorem Tacit.not_begun {fx : List Effect} (h : Tacit fx) (a : Analysis) (remote : Bool) :
    begun? fx ≠ some (a, remote) := by
  rw [h.1]
  simp

theorem tacit_wake (t : Task) : Tacit [.wake t] := ⟨rfl, fun _ => rfl⟩

theorem tacit_alarm (time : Duration) (t : Task) : Tacit [.alarm time t] := ⟨rfl, fun _ => rfl⟩

theorem tacit_called (ticket : Nat) (a : Analysis) : Tacit [.called ticket a] :=
  ⟨rfl, fun _ => rfl⟩

theorem tacit_wakes (l : List (RequestQueue.Settled (List Finding) RemoteError)) :
    Tacit (l.map fun s => Effect.wake (.completion s.ticket)) := by
  induction l with
  | nil => exact tacit_nil
  | cons s r ih => exact (tacit_wake (.completion s.ticket)).append ih

theorem begun?_begun (a : Analysis) (remote : Bool) (fx : List Effect) :
    begun? (.begun a remote :: fx) = some (a, remote) := rfl

theorem tellsOf_begun (a : Analysis) (remote : Bool) (fx : List Effect) (id : DocumentId) :
    tellsOf id (.begun a remote :: fx) = tellsOf id fx := by
  simp [tellsOf, Effect.tellsOf]

theorem begun?_published (id : DocumentId) (findings : List Finding) :
    begun? [.published id findings] = none := rfl

theorem tellsOf_published (id other : DocumentId) (findings : List Finding) :
    tellsOf other [.published id findings] = decide (id = other) := by
  simp [tellsOf, Effect.tellsOf]

/-- Of a list without a beginning and telling, put in front of another, only the other
counts. -/
theorem begun?_append_of_tacit {fx gx : List Effect} (h : Tacit fx) :
    begun? (fx ++ gx) = begun? gx := by
  have hb := h.1
  unfold begun? at hb ⊢
  rw [List.findSome?_append, hb]
  rfl

theorem tellsOf_append_of_tacit {fx gx : List Effect} (h : Tacit fx) (id : DocumentId) :
    tellsOf id (fx ++ gx) = tellsOf id gx := by
  have ht := h.2 id
  unfold tellsOf at ht ⊢
  rw [List.any_append, ht]
  rfl

/-! ## The kinds of steps -/

/-- What the queue settles is noted at an analysis that is owed. -/
def Owed.settledBy (settled : List (RequestQueue.Settled (List Finding) RemoteError)) (o : Owed) :
    Owed :=
  match settled.find? (·.ticket = o.ticket) with
  | some s => { o with outcome := some s.result }
  | none => o

theorem settle_eq (settled : List (RequestQueue.Settled (List Finding) RemoteError)) (w : Watch) :
    w.settle settled = ({ w with owed := w.owed.map (Owed.settledBy settled) },
      settled.map fun s => .wake (.completion s.ticket)) := rfl

/-- An analysis that a watch begins of the text in an entry. -/
def IsOf (a : Analysis) (id : DocumentId) (e : DocumentEntry) : Prop :=
  a.document = id ∧ a.fingerprint = e.fingerprint ∧ a.content = e.content ∧ a.seq = e.seq + 1

/-- A store from which the text of a document is taken in, if it is another one. -/
def Reads (s : DocumentStore) (id : DocumentId) (t : DocumentStore) : Prop :=
  t = s ∨ ∃ content, s.IsNews id (Fingerprint.ofText content) ∧ t = (s.upsert id content).2

theorem cache_of_reads {s t : DocumentStore} (h : Reads s id t) : t.cache = s.cache := by
  rcases h with rfl | ⟨content, -, rfl⟩
  · rfl
  · exact DocumentStore.upsert_cache s id content

theorem config_of_reads {s t : DocumentStore} (h : Reads s id t) : t.config = s.config := by
  rcases h with rfl | ⟨content, -, rfl⟩
  · rfl
  · exact DocumentStore.upsert_config s id content

theorem maxCacheAge_of_reads {s t : DocumentStore} (h : Reads s id t) :
    t.maxCacheAge = s.maxCacheAge := by
  rcases h with rfl | ⟨content, -, rfl⟩
  · rfl
  · exact DocumentStore.upsert_maxCacheAge s id content

/-- A store into which findings for the text of a document are taken, cached or not. -/
def TakesIn (now : Duration) (s : DocumentStore) (id : DocumentId) (fp : Fingerprint)
    (findings : List Finding) (t : DocumentStore) : Prop :=
  t = (s.setResult now id fp findings).2 ∨ t = (s.recordResult now id fp findings).2

namespace TakesIn

variable {s t : DocumentStore} {findings : List Finding}

theorem get?_eq (h : TakesIn now s id fp findings t) (other : DocumentId) :
    t.get? other = (s.recordResult now id fp findings).2.get? other := by
  rcases h with rfl | rfl
  · exact DocumentStore.get?_setResult now s id other fp findings
  · rfl

theorem text?_eq (h : TakesIn now s id fp findings t) (other : DocumentId) :
    t.text? other = s.text? other := by
  rcases h with rfl | rfl
  · exact DocumentStore.text?_setResult now s id other fp findings
  · exact DocumentStore.text?_recordResult now s id other fp findings

theorem maxCacheAge_eq (h : TakesIn now s id fp findings t) : t.maxCacheAge = s.maxCacheAge := by
  rcases h with rfl | rfl
  · exact DocumentStore.setResult_maxCacheAge now s id fp findings
  · exact DocumentStore.recordResult_maxCacheAge now s id fp findings

theorem about {P : String → Fingerprint → Prop} (h : TakesIn now s id fp findings t)
    (hs : s.About P) : t.About P := by
  rcases h with rfl | rfl
  · exact hs.setResult now id fp findings
  · exact hs.recordResult now id fp findings

/-- What a completed analysis found is taken in; it is cached if the service found it. -/
theorem of_completed {outcome : Outcome} {options : WatchOptions}
    (h : (∃ raw, outcome = .ok raw ∧ findings = options.filter raw ∧
        t = (s.setResult now id fp findings).2) ∨
      ((∀ raw, outcome ≠ .ok raw) ∧ t = (s.recordResult now id fp findings).2)) :
    TakesIn now s id fp findings t := by
  rcases h with ⟨_, -, -, rfl⟩ | ⟨-, rfl⟩
  · exact .inl rfl
  · exact .inr rfl

end TakesIn

/-- What the service found is filtered. -/
theorem filtered_of_completed {s t : DocumentStore} {findings : List Finding} {outcome : Outcome}
    {options : WatchOptions}
    (h : (∃ raw, outcome = .ok raw ∧ findings = options.filter raw ∧
        t = (s.setResult now id fp findings).2) ∨
      ((∀ raw, outcome ≠ .ok raw) ∧ t = (s.recordResult now id fp findings).2))
    (raw : List Finding) (hraw : outcome = .ok raw) : findings = options.filter raw := by
  rcases h with ⟨raw', hok, hfindings, -⟩ | ⟨hnot, -⟩
  · rw [hraw] at hok
    cases hok
    exact hfindings
  · exact absurd hraw (hnot raw)

/-- What one step does. -/
inductive Stride (now : Duration) (w : Watch) : Event → Watch → List Effect → Prop
  /-- The documents and the requests stay.  A call may be over, if the text is another
  one by now or an analysis is under way. -/
  | still {e : Event} {w' : Watch} {fx : List Effect} (hstore : w'.store = w.store)
      (howed : w'.owed = w.owed) (hqueue : w'.queue = w.queue ∨ ∃ x, w'.queue = w.queue.finish x)
      (hcalls : ∀ id d, w.store.get? id = some d → w.Awaits id d.fingerprint →
        w'.Awaits id d.fingerprint ∨ d.inFlight = true)
      (hevent : w.concluded? e = none) (hup : e.isShutDown = false) (hfx : Tacit fx)
      (hback : ∀ id fp, w'.Pends id fp → w.Pends id fp) : Stride now w e w' fx
  /-- The text of a document is another one, for which the cache has nothing, and a call
  for it waits. -/
  | edited {e : Event} {w' : Watch} {fx : List Effect} (id : DocumentId) (content : String)
      (hnews : w.store.IsNews id (Fingerprint.ofText content))
      (hstore : w'.store = (w.store.upsert id content).2) (howed : w'.owed = w.owed)
      (hqueue : w'.queue = w.queue) (hcall : w'.Awaits id (Fingerprint.ofText content))
      (hcalls : ∀ other fp, other ≠ id → w.Awaits other fp → w'.Awaits other fp)
      (hevent : w.concluded? e = none) (hup : e.isShutDown = false) (hfx : Tacit fx)
      (hback : ∀ other fp, w'.Pends other fp →
        (other = id ∧ fp = Fingerprint.ofText content) ∨ (other ≠ id ∧ w.Pends other fp))
      (hmissed : w'.store.getCached? now id = none) (hsaid : e.text? = some content)
      (hdocument : e.textOf? = some id) : Stride now w e w' fx
  /-- A result for the text of a document, which may just have come, is in the cache. -/
  | replayed {e : Event} {w' : Watch} {fx : List Effect} (id : DocumentId) (s : DocumentStore)
      (d : DocumentEntry) (findings : List Finding) (hreads : Reads w.store id s)
      (hopen : s.get? id = some d) (hfree : d.inFlight = false)
      (hcached : s.getCached? now id = some findings)
      (hstore : w'.store = (s.recordResult now id d.fingerprint findings).2)
      (howed : w'.owed = w.owed) (hqueue : w'.queue = w.queue)
      (hcalls : ∀ other fp, other ≠ id → w.Awaits other fp → w'.Awaits other fp)
      (hevent : w.concluded? e = none) (hup : e.isShutDown = false)
      (hfx : fx = [.published id findings])
      (hback : ∀ other fp, w'.Pends other fp → other ≠ id ∧ w.Pends other fp)
      (hsaid : s = w.store ∨
        ∃ content, e.text? = some content ∧ s = (w.store.upsert id content).2)
      (hdocument : s = w.store ∨ e.textOf? = some id) : Stride now w e w' fx
  /-- An analysis of the text of a document is begun and queued: the cache has nothing for
  the text, or a call for it waited. -/
  | begun {e : Event} {w' : Watch} {fx : List Effect} (id : DocumentId) (d : DocumentEntry)
      (a : Analysis) (hopen : w.store.get? id = some d) (hfree : d.inFlight = false)
      (ha : IsOf a id d) (hstore : w'.store = w.store.modify id DocumentStore.engaged)
      (howed : w'.owed = w.owed.map (Owed.settledBy (w.queue.enqueue now id a).settled) ++
        [{ ticket := w.queue.nextTicket, analysis := a }])
      (hqueue : w'.queue = (w.queue.enqueue now id a).queue)
      (hcalls : ∀ other fp, other ≠ id → w.Awaits other fp → w'.Awaits other fp)
      (hevent : w.concluded? e = none) (hup : e.isShutDown = false)
      (hbegun : begun? fx = some (a, true)) (htells : ∀ id, tellsOf id fx = false)
      (hback : ∀ other fp, w'.Pends other fp → other ≠ id ∧ w.Pends other fp)
      (hcause : w.store.getCached? now id = none ∨ w.Pends id d.fingerprint)
      (hremote : ¬ w.refused = some w.store.config)
      (hasked : w.Asks now e id d.fingerprint) : Stride now w e w' fx
  /-- An analysis of the text of a document is begun, and the heuristics answer at once,
  since the key was refused. -/
  | fellBack {e : Event} {w' : Watch} {fx : List Effect} (id : DocumentId) (d : DocumentEntry)
      (a : Analysis) (findings : List Finding) (hopen : w.store.get? id = some d)
      (hfree : d.inFlight = false) (ha : IsOf a id d)
      (hstore : w'.store = ((w.store.modify id DocumentStore.engaged).recordResult now id
        d.fingerprint findings).2)
      (howed : w'.owed = w.owed) (hqueue : w'.queue = w.queue)
      (hcalls : ∀ other fp, other ≠ id → w.Awaits other fp → w'.Awaits other fp)
      (hevent : w.concluded? e = none) (hup : e.isShutDown = false)
      (hfx : fx = [.begun a false, .published id findings])
      (hback : ∀ other fp, w'.Pends other fp → other ≠ id ∧ w.Pends other fp)
      (hcause : w.store.getCached? now id = none ∨ w.Pends id d.fingerprint)
      (hrefused : w.refused = some w.store.config)
      (hscan : findings = w.options.filter (Heuristics.scan id d.content))
      (hasked : w.Asks now e id d.fingerprint) : Stride now w e w' fx
  /-- The worker of the queue takes a turn. -/
  | turned {e : Event} {w' : Watch} {fx : List Effect} (hstore : w'.store = w.store)
      (howed : w'.owed = w.owed.map (Owed.settledBy (w.queue.turn now).2.1))
      (hqueue : w'.queue = (w.queue.turn now).1) (hdebouncers : w'.debouncers = w.debouncers)
      (hevent : w.concluded? e = none) (hup : e.isShutDown = false) (hfx : Tacit fx) :
      Stride now w e w' fx
  /-- An analysis is completed with what the service or the heuristics found in the
  text as it is. -/
  | answered {e : Event} {w' : Watch} {fx : List Effect} (o : Owed) (outcome : Outcome)
      (d : DocumentEntry) (findings : List Finding)
      (hfound : w.owed.find? (·.ticket = o.ticket) = some o) (houtcome : o.outcome = some outcome)
      (hopen : w.store.get? o.analysis.document = some d)
      (htext : d.fingerprint = o.analysis.fingerprint)
      (hstore : (∃ raw, outcome = .ok raw ∧ findings = w.options.filter raw ∧
          w'.store = (w.store.setResult now o.analysis.document d.fingerprint findings).2) ∨
        ((∀ raw, outcome ≠ .ok raw) ∧
          w'.store = (w.store.recordResult now o.analysis.document d.fingerprint findings).2))
      (howed : w'.owed = w.owed.filter (·.ticket ≠ o.ticket)) (hqueue : w'.queue = w.queue)
      (hdebouncers : w'.debouncers = w.debouncers)
      (hevent : e = .ran (.completion o.ticket))
      (hfx : fx = [.published o.analysis.document findings])
      (hlocal : (∃ raw, outcome = .ok raw) ∨ ∃ x, verdict outcome = .failed x ∧
        findings = (w.noticeFor x).1.toList ++
          w.options.filter (Heuristics.scan o.analysis.document o.analysis.content)) :
      Stride now w e w' fx
  /-- An analysis is completed and nothing comes of it: it ended silently, or its text
  is gone. -/
  | lapsed {e : Event} {w' : Watch} {fx : List Effect} (o : Owed) (outcome : Outcome)
      (hfound : w.owed.find? (·.ticket = o.ticket) = some o) (houtcome : o.outcome = some outcome)
      (hwhy : verdict outcome = .dropped ∨
        ∀ d, w.store.get? o.analysis.document = some d → d.fingerprint ≠ o.analysis.fingerprint)
      (hstore : w'.store = (w.store.finishAnalysis o.analysis.document o.analysis.seq).2)
      (howed : w'.owed = w.owed.filter (·.ticket ≠ o.ticket)) (hqueue : w'.queue = w.queue)
      (hdebouncers : w'.debouncers = w.debouncers)
      (hevent : e = .ran (.completion o.ticket)) (hfx : Tacit fx) : Stride now w e w' fx
  | closed {e : Event} {w' : Watch} {fx : List Effect} (id : DocumentId)
      (hstore : w'.store = (w.store.remove id).2)
      (howed : w'.owed = w.owed.map (Owed.settledBy (w.queue.cancelWhere (· = id)).settled))
      (hqueue : w'.queue = (w.queue.cancelWhere (· = id)).queue)
      (hcalls : ∀ other fp, other ≠ id → w.Awaits other fp → w'.Awaits other fp)
      (hevent : e = .closed id) (hbegun : begun? fx = none)
      (htells : ∀ other, other ≠ id → tellsOf other fx = false)
      (hback : ∀ other fp, w'.Pends other fp → other ≠ id ∧ w.Pends other fp)
      (hempty : ∀ other findings, Effect.published other findings ∈ fx → findings = []) :
      Stride now w e w' fx
  /-- Calls for the texts as they are wait on; if the settings mean something else now,
  one waits for every open document.  A call that waits for a document may be made anew for
  the text as it is. -/
  | reconfigured {e : Event} {w' : Watch} {fx : List Effect} (config : Fingerprint)
      (hstore : w'.store = (w.store.setConfig config).2) (howed : w'.owed = w.owed)
      (hqueue : ∃ age, w'.queue = w.queue.setMaxAge age)
      (hcalls : ∀ id d, w.store.get? id = some d → w.Awaits id d.fingerprint →
        w'.Awaits id d.fingerprint)
      (hanew : w.store.config ≠ config → ∀ id d, w.store.get? id = some d →
        w'.Awaits id d.fingerprint)
      (hevent : e.isReconfigured = true) (hfx : Tacit fx)
      (hback : ∀ id fp, w'.Pends id fp → w.Pends id fp ∨
        ∃ d, w.store.get? id = some d ∧ d.fingerprint = fp ∧
          (w.store.config ≠ config ∨ ∃ x, w.Pends id x)) : Stride now w e w' fx
  | configSet {e : Event} {w' : Watch} {fx : List Effect} (config : Fingerprint)
      (hstore : w'.store = (w.store.setConfig config).2) (howed : w'.owed = w.owed)
      (hqueue : w'.queue = w.queue) (hdebouncers : w'.debouncers = w.debouncers)
      (hevent : e = .configSet config) (hfx : fx = []) : Stride now w e w' fx
  | shutDown {e : Event} {w' : Watch} {fx : List Effect} (hstore : w'.store = w.store)
      (howed : w'.owed = w.owed.map (Owed.settledBy (w.queue.cancelWhere fun _ => true).settled))
      (hqueue : w'.queue = (w.queue.cancelWhere fun _ => true).queue) (hevent : e = .shutDown)
      (hfx : Tacit fx) (hback : ∀ id fp, ¬ w'.Pends id fp) : Stride now w e w' fx

/-! ## Parts of steps -/

variable {w w₀ w₁ : Watch} {e : Event}

theorem recordResult_of_text {s : DocumentStore} {d : DocumentEntry} {findings : List Finding}
    (h : s.get? id = some d) (hfp : d.fingerprint = fp) :
    s.recordResult now id fp findings = (true, (s.recordResult now id fp findings).2) := by
  have hfst : (s.recordResult now id fp findings).1 = true := by
    rw [DocumentStore.recordResult_fst, h]
    simp [hfp]
  rw [← hfst]

theorem deliverCached_of_none (h : w.store.getCached? now id = none) :
    w.deliverCached now id fp = (false, w, []) := by
  simp [deliverCached, h]

theorem deliverCached_of_some {d : DocumentEntry} {findings : List Finding}
    (hopen : w.store.get? id = some d) (h : w.store.getCached? now id = some findings) :
    w.deliverCached now id d.fingerprint =
      (true, { w with store := (w.store.recordResult now id d.fingerprint findings).2 },
        [.published id findings]) := by
  unfold deliverCached
  rw [h]
  simp only
  rw [recordResult_of_text hopen rfl]

theorem trigger_of_busy (h : ∀ d, w.store.get? id = some d → d.inFlight = true) :
    w.trigger now id = (w, []) := by
  unfold trigger
  cases hs : w.store.get? id with
  | none => rw [DocumentStore.beginAnalysis_of_none hs]
  | some d => rw [DocumentStore.beginAnalysis_of_inFlight hs (h d hs)]

/-- The analysis that is begun of a document. -/
def analysisOf (w : Watch) (id : DocumentId) (d : DocumentEntry) : Analysis :=
  { document := id
    fingerprint := d.fingerprint
    content := d.content
    seq := d.seq + 1
    rules := w.options.rules
    policy := w.options.retry
    bucket := w.bucket
    service := w.service }

theorem isOf_analysisOf (w : Watch) (id : DocumentId) (d : DocumentEntry) :
    IsOf (w.analysisOf id d) id d := ⟨rfl, rfl, rfl, rfl⟩

theorem trigger_local (now : Duration) {d : DocumentEntry} (h : w.store.get? id = some d)
    (hfree : d.inFlight = false) (hrefused : w.refused = some w.store.config) :
    let findings := w.options.filter (Heuristics.scan id d.content)
    w.trigger now id =
      ({ w with store := ((w.store.modify id DocumentStore.engaged).recordResult now id
          d.fingerprint findings).2 },
        [.begun (w.analysisOf id d) false, .published id findings]) := by
  have hengaged := DocumentStore.get?_engaged_self h
  unfold trigger
  rw [DocumentStore.beginAnalysis_of_free h hfree]
  dsimp only
  rw [if_pos (show w.refused = some (w.store.modify id DocumentStore.engaged).config from hrefused)]
  unfold fallBack
  simp only [Option.toList_none, List.nil_append]
  rw [show ∀ findings, DocumentStore.recordResult now _ id (DocumentStore.engaged d).fingerprint
    findings = _ from fun findings => recordResult_of_text hengaged rfl]
  rfl

theorem trigger_remote {d : DocumentEntry} (h : w.store.get? id = some d)
    (hfree : d.inFlight = false) (hrefused : ¬ w.refused = some w.store.config) :
    w.trigger now id =
      let a := w.analysisOf id d
      let q := w.queue.enqueue now id a
      ({ w with
          store := w.store.modify id DocumentStore.engaged
          queue := q.queue
          owed := w.owed.map (Owed.settledBy q.settled) ++
            [{ ticket := q.ticket, analysis := a }] },
        .begun a true :: q.settled.map (fun s => .wake (.completion s.ticket)) ++
          (if q.startsWorker then [.wake .worker] else []) ++ [.wake (.completion q.ticket)]) := by
  unfold trigger
  rw [DocumentStore.beginAnalysis_of_free h hfree]
  dsimp only
  rw [if_neg (show ¬ w.refused = some (w.store.modify id DocumentStore.engaged).config
    from hrefused)]
  rfl

theorem fire_of_text {d : DocumentEntry} (h : w.store.get? id = some d)
    (hfp : d.fingerprint = fp) : w.fire now id fp = w.trigger now id := by
  simp [fire, h, hfp]

theorem fire_of_not (h : ∀ d, w.store.get? id = some d → d.fingerprint ≠ fp) :
    w.fire now id fp = (w, []) := by
  unfold fire
  cases hs : w.store.get? id with
  | none => simp
  | some d => simp [h d hs]

/-- What a step is that may take a call for `id` away and then triggers an analysis. -/
theorem stride_trigger (hstore : w₁.store = w₀.store) (howed : w₁.owed = w₀.owed)
    (hqueue : w₁.queue = w₀.queue) (hterms : SameTerms w₀ w₁)
    (hcalls : ∀ other fp, other ≠ id → w₀.Awaits other fp → w₁.Awaits other fp)
    (hback : ∀ other fp, w₁.Pends other fp → other ≠ id ∧ w₀.Pends other fp)
    (hcause : ∀ d, w₀.store.get? id = some d →
      w₀.store.getCached? now id = none ∨ w₀.Pends id d.fingerprint)
    (hasked : ∀ d, w₀.store.get? id = some d → w₀.Asks now e id d.fingerprint)
    (hevent : w₀.concluded? e = none) (hup : e.isShutDown = false) :
    Stride now w₀ e (w₁.trigger now id).1 (w₁.trigger now id).2 := by
  by_cases hbusy : ∀ d, w₁.store.get? id = some d → d.inFlight = true
  · rw [trigger_of_busy hbusy]
    refine .still hstore howed (.inl hqueue) ?_ hevent hup tacit_nil
      fun other fp ha => (hback other fp ha).2
    intro other d hd ha
    by_cases ho : other = id
    · subst ho
      exact .inr (hbusy d (hstore ▸ hd))
    · exact .inl (hcalls other _ ho ha)
  · obtain ⟨d, hd⟩ : ∃ d, w₁.store.get? id = some d ∧ d.inFlight = false := by
      simpa using hbusy
    obtain ⟨hd, hfree⟩ := hd
    have hkept : ∀ w' : Watch, w'.debouncers = w₁.debouncers →
        (∀ other fp, other ≠ id → w₀.Awaits other fp → w'.Awaits other fp) ∧
          ∀ other fp, w'.Pends other fp → other ≠ id ∧ w₀.Pends other fp :=
      fun w' hw => ⟨fun other fp ho ha => (hcalls other fp ho ha).debouncers_eq hw,
        fun other fp ha => hback other fp (ha.debouncers_eq hw.symm)⟩
    have hmark : w₁.refused = some w₁.store.config ↔ w₀.refused = some w₀.store.config := by
      rw [hterms.refused, hstore]
    by_cases hrefused : w₁.refused = some w₁.store.config
    · rw [trigger_local now hd hfree hrefused]
      exact .fellBack id d (w₁.analysisOf id d) _ (hstore ▸ hd) hfree
        (isOf_analysisOf w₁ id d) (hstore ▸ rfl) howed hqueue (hkept _ rfl).1 hevent hup rfl
        (hkept _ rfl).2 (hcause d (hstore ▸ hd)) (hmark.mp hrefused) (hterms.options ▸ rfl)
        (hasked d (hstore ▸ hd))
    · rw [trigger_remote hd hfree hrefused]
      refine .begun id d (w₁.analysisOf id d) (hstore ▸ hd) hfree (isOf_analysisOf w₁ id d)
        (hstore ▸ rfl) ?_ ?_ (hkept _ rfl).1 hevent hup rfl ?_ (hkept _ rfl).2
        (hcause d (hstore ▸ hd)) (mt hmark.mpr hrefused) (hasked d (hstore ▸ hd))
      · rw [← howed, ← hqueue]
        rfl
      · rw [← hqueue]
      · intro other
        dsimp only
        rw [List.append_assoc, List.cons_append, tellsOf_begun,
          tellsOf_append_of_tacit (tacit_wakes _)]
        refine (Tacit.append ?_ (tacit_wake _)).2 other
        split
        · exact tacit_wake _
        · exact tacit_nil

/-- What a step is that takes the call for `id` away and acts on it. -/
theorem stride_fire (hstore : w₁.store = w₀.store) (howed : w₁.owed = w₀.owed)
    (hqueue : w₁.queue = w₀.queue) (hterms : SameTerms w₀ w₁)
    (hcalls : ∀ other fp, other ≠ id → w₀.Awaits other fp → w₁.Awaits other fp)
    (hback : ∀ other fp, w₁.Pends other fp → other ≠ id ∧ w₀.Pends other fp)
    (hcall : w₀.Awaits id fp) (hasked : w₀.Asks now e id fp)
    (hevent : w₀.concluded? e = none) (hup : e.isShutDown = false) :
    Stride now w₀ e (w₁.fire now id fp).1 (w₁.fire now id fp).2 := by
  by_cases h : ∀ d, w₁.store.get? id = some d → d.fingerprint ≠ fp
  · rw [fire_of_not h]
    refine .still hstore howed (.inl hqueue) ?_ hevent hup tacit_nil
      fun other fp ha => (hback other fp ha).2
    intro other d hd ha
    by_cases ho : other = id
    · subst ho
      exact absurd (ha.eq hcall) (h d (hstore ▸ hd))
    · exact .inl (hcalls other _ ho ha)
  · obtain ⟨d, hd, hfp⟩ : ∃ d, w₁.store.get? id = some d ∧ d.fingerprint = fp := by
      simpa using h
    rw [fire_of_text hd hfp]
    have hsame : ∀ d', w₀.store.get? id = some d' → d'.fingerprint = fp := by
      intro d' hd'
      rw [hstore, hd'] at hd
      cases hd
      exact hfp
    exact stride_trigger hstore howed hqueue hterms hcalls hback
      (fun d' hd' => .inr (hsame d' hd' ▸ hcall.pends)) (fun d' hd' => hsame d' hd' ▸ hasked)
      hevent hup

/-- What a step is that does nothing. -/
theorem stride_nothing (hevent : w.concluded? e = none) (hup : e.isShutDown = false) :
    Stride now w e w [] :=
  .still rfl rfl (.inl rfl) (fun _ _ _ ha => .inl ha) hevent hup tacit_nil fun _ _ ha => ha

end Watch

end SmellWatch
