import SmellWatch.Proofs.Watch.Stride.Kinds
/-! What the steps of an editor do: a text comes, a document is saved or closed, and the watch is
shut down. -/

namespace SmellWatch

namespace Watch

variable {now : Duration} {id other : DocumentId} {fp : Fingerprint} {w w₀ w₁ : Watch} {e : Event}

theorem awaits_schedule_self (w : Watch) (id : DocumentId) (fp : Fingerprint) :
    (w.schedule now id fp).1.Awaits id fp := by
  unfold schedule
  exact ⟨_, _, debouncer?_setDebouncer_self _ _ _, rfl, rfl⟩

theorem awaits_schedule_of_ne {w : Watch} {x : Fingerprint} (h : other ≠ id) :
    (w.schedule now id fp).1.Awaits other x ↔ w.Awaits other x := by
  unfold schedule
  exact awaits_setDebouncer_of_ne _ _ h

theorem schedule_store (w : Watch) (id : DocumentId) (fp : Fingerprint) :
    (w.schedule now id fp).1.store = w.store := setDebouncer_store _ _ _

theorem schedule_queue (w : Watch) (id : DocumentId) (fp : Fingerprint) :
    (w.schedule now id fp).1.queue = w.queue := setDebouncer_queue _ _ _

theorem schedule_owed (w : Watch) (id : DocumentId) (fp : Fingerprint) :
    (w.schedule now id fp).1.owed = w.owed := setDebouncer_owed _ _ _

/-- A text that a document has already changes nothing. -/
theorem update_same (now : Duration) {content : String}
    (h : ¬ w.store.IsNews id (Fingerprint.ofText content)) : w.update now id content = (w, []) := by
  unfold update
  rw [DocumentStore.upsert_of_not_isNews h]

theorem upsert_of_isNews {content : String} (h : w.store.IsNews id (Fingerprint.ofText content)) :
    w.store.upsert id content = (true, (w.store.upsert id content).2) := by
  rw [← DocumentStore.upsert_news h]

/-- A call waits for a new text for which the cache has nothing. -/
theorem update_missed {content : String} (h : w.store.IsNews id (Fingerprint.ofText content))
    (hc : (w.store.upsert id content).2.getCached? now id = none) :
    w.update now id content =
      { w with store := (w.store.upsert id content).2 }.schedule now id
        (Fingerprint.ofText content) := by
  unfold update
  rw [upsert_of_isNews h]
  dsimp only
  rw [deliverCached_of_none hc]

/-- Taking a call away, if there is one, as an update does it. -/
theorem disarmed_eq (w : Watch) (id : DocumentId) (fx : List Effect) :
    (match w.debouncer? id with
      | some d => (w.setDebouncer id d.disarm, fx)
      | none => (w, fx)) = (w.flushed id, fx) := by
  unfold flushed
  cases w.debouncer? id <;> rfl

/-- A new text for which the cache has a result is answered, and no call waits. -/
theorem update_cached {content : String} {findings : List Finding}
    (h : w.store.IsNews id (Fingerprint.ofText content))
    (hc : (w.store.upsert id content).2.getCached? now id = some findings) :
    w.update now id content =
      (flushed { w with store := ((w.store.upsert id content).2.recordResult now id
        (Fingerprint.ofText content) findings).2 } id, [.published id findings]) := by
  have hd := deliverCached_of_some (w := { w with store := (w.store.upsert id content).2 })
    (DocumentStore.get?_upsert_self h) hc
  rw [DocumentStore.retext_fingerprint] at hd
  unfold update
  rw [upsert_of_isNews h]
  dsimp only
  rw [hd]
  exact disarmed_eq _ id _

theorem stride_update {content : String} (hsaid : e.text? = some content)
    (hdocument : e.textOf? = some id) (hevent : w.concluded? e = none)
    (hup : e.isShutDown = false) :
    Stride now w e (w.update now id content).1 (w.update now id content).2 := by
  by_cases hnews : w.store.IsNews id (Fingerprint.ofText content)
  · cases hc : (w.store.upsert id content).2.getCached? now id with
    | none =>
      rw [update_missed hnews hc]
      have hstore : ({ w with store := (w.store.upsert id content).2 }.schedule now id
          (Fingerprint.ofText content)).1.store = (w.store.upsert id content).2 :=
        schedule_store _ _ _
      refine .edited id content hnews hstore (schedule_owed _ _ _)
        (schedule_queue _ _ _) (awaits_schedule_self _ _ _) ?_ hevent hup (tacit_wake _) ?_
        (hstore.symm ▸ hc) hsaid hdocument
      · intro other fp ho ha
        exact (awaits_schedule_of_ne ho).mpr (ha.debouncers_eq rfl)
      · intro other fp ha
        rcases pends_of_setDebouncer ha with ⟨ho, p, hp, hfp⟩ | ⟨ho, ha⟩
        · cases hp
          exact .inl ⟨ho, hfp.symm⟩
        · exact .inr ⟨ho, ha.debouncers_eq rfl⟩
    | some findings =>
      rw [update_cached hnews hc]
      refine .replayed id _ _ findings (.inr ⟨content, hnews, rfl⟩)
        (DocumentStore.get?_upsert_self hnews) (DocumentStore.retext_inFlight _ _ _) hc ?_
        (flushed_owed _ _) (flushed_queue _ _) ?_ hevent hup rfl ?_ (.inr ⟨content, hsaid, rfl⟩)
        (.inr hdocument)
      · rw [flushed_store, DocumentStore.retext_fingerprint]
      · intro other fp ho ha
        exact (awaits_flushed_of_ne _ ho).mpr (ha.debouncers_eq rfl)
      · intro other fp ha
        obtain ⟨ho, ha⟩ := pends_of_flushed ha
        exact ⟨ho, ha.debouncers_eq rfl⟩
  · rw [update_same now hnews]
    exact stride_nothing hevent hup

/-- What a save does when no call waits for its document. -/
theorem stride_save_unflushed (hstore : w₁.store = w₀.store) (howed : w₁.owed = w₀.owed)
    (hqueue : w₁.queue = w₀.queue) (hterms : SameTerms w₀ w₁)
    (hcalls : ∀ other fp, other ≠ id → w₀.Awaits other fp → w₁.Awaits other fp)
    (hback : ∀ other fp, w₁.Pends other fp → other ≠ id ∧ w₀.Pends other fp)
    (hcall : ∀ fp, ¬ w₀.Awaits id fp) (hsaved : e = .saved id)
    (hevent : w₀.concluded? e = none) (hup : e.isShutDown = false) :
    let x := match w₁.store.get? id with
      | none => (w₁, [])
      | some d =>
        if d.hasCurrentResult || d.inFlight then (w₁, [])
        else
          match w₁.deliverCached now id d.fingerprint with
          | (true, w, effects) => (w, effects)
          | (false, w, _) => w.trigger now id
    Stride now w₀ e x.1 x.2 := by
  have hstill : Stride now w₀ e w₁ [] := by
    refine .still hstore howed (.inl hqueue) ?_ hevent hup tacit_nil
      fun other fp ha => (hback other fp ha).2
    intro other d hd ha
    by_cases ho : other = id
    · subst ho
      exact absurd ha (hcall _)
    · exact .inl (hcalls other _ ho ha)
  cases hs : w₁.store.get? id with
  | none => exact hstill
  | some d =>
    dsimp only
    split
    · exact hstill
    · rename_i hidle
      have hfree : d.inFlight = false := by
        cases hf : d.inFlight with
        | false => rfl
        | true => simp [hf] at hidle
      cases hc : w₁.store.getCached? now id with
      | none =>
        rw [deliverCached_of_none hc]
        exact stride_trigger hstore howed hqueue hterms hcalls hback
          (fun _ _ => .inl (hstore ▸ hc)) (fun _ _ => .inl hsaved) hevent hup
      | some findings =>
        rw [deliverCached_of_some hs hc]
        exact .replayed id w₁.store d findings (.inl hstore) hs hfree hc rfl howed hqueue
          (fun other fp ho ha => (hcalls other fp ho ha).debouncers_eq rfl) hevent hup rfl
          (fun other fp ha => hback other fp (ha.debouncers_eq rfl)) (.inl hstore) (.inl hstore)

/-- A save takes the call for its document away and acts on it, if one waits. -/
theorem save_eq (now : Duration) (id : DocumentId) (w : Watch) :
    w.save now id =
      match (w.debouncer? id).bind (·.pending) with
      | some p => (w.flushed id).fire now id p.value
      | none =>
        match (w.flushed id).store.get? id with
        | none => (w.flushed id, [])
        | some d =>
          if d.hasCurrentResult || d.inFlight then (w.flushed id, [])
          else
            match (w.flushed id).deliverCached now id d.fingerprint with
            | (true, w, effects) => (w, effects)
            | (false, w, _) => w.trigger now id := by
  unfold save flushed
  cases w.debouncer? id with
  | none => rfl
  | some d =>
    obtain ⟨delay, pending, generation, timer⟩ := d
    cases pending <;> rfl

theorem stride_save (hsaved : e = .saved id) (hevent : w.concluded? e = none)
    (hup : e.isShutDown = false) :
    Stride now w e (w.save now id).1 (w.save now id).2 := by
  have hcalls : ∀ other fp, other ≠ id → w.Awaits other fp → (w.flushed id).Awaits other fp :=
    fun other fp ho ha => (awaits_flushed_of_ne w ho).mpr ha
  have hback : ∀ other fp, (w.flushed id).Pends other fp → other ≠ id ∧ w.Pends other fp :=
    fun other fp ha => pends_of_flushed ha
  rw [save_eq]
  cases hp : (w.debouncer? id).bind (·.pending) with
  | some p =>
    obtain ⟨d, hd, hp⟩ := Option.bind_eq_some_iff.mp hp
    exact stride_fire (flushed_store w id) (flushed_owed w id) (flushed_queue w id)
      (sameTerms_flushed w id) hcalls hback ⟨d, p, hd, hp, rfl⟩ (.inl hsaved) hevent hup
  | none =>
    refine stride_save_unflushed (flushed_store w id) (flushed_owed w id) (flushed_queue w id)
      (sameTerms_flushed w id) hcalls hback ?_ hsaved hevent hup
    rintro fp ⟨d, p, hd, hp', -⟩
    rw [hd, Option.bind_some, hp'] at hp
    cases hp

theorem cancelQueued_eq (wanted : DocumentId → Bool) (w : Watch) :
    ∃ fx, Tacit fx ∧ w.cancelQueued wanted =
      ({ w with
          queue := (w.queue.cancelWhere wanted).queue
          owed := w.owed.map (Owed.settledBy (w.queue.cancelWhere wanted).settled) }, fx) := by
  unfold cancelQueued
  dsimp only
  rw [settle_eq]
  refine ⟨_, Tacit.append (tacit_wakes _) ?_, rfl⟩
  split
  · split
    · exact tacit_wake _
    · exact tacit_nil
  · exact tacit_nil

/-- The findings of a document that is closed are told to be none. -/
theorem close_effects (now : Duration) (id : DocumentId) (w : Watch) :
    ∃ fx, Tacit fx ∧ (w.close now id).2 = fx ++ [.published id []] := by
  obtain ⟨fx, hfx, hc⟩ := cancelQueued_eq (· = id) (w.dropDebouncers (· = id))
  refine ⟨fx, hfx, ?_⟩
  unfold close
  dsimp only
  rw [hc]

theorem stride_close (w : Watch) (id : DocumentId) :
    Stride now w (.closed id) (w.close now id).1 (w.close now id).2 := by
  obtain ⟨fx, hfx, heffects⟩ := close_effects now id w
  rw [heffects]
  refine .closed id rfl rfl rfl ?_ rfl ?_ ?_ ?_ ?_
  · intro other fp ho ha
    have hdrop : (w.dropDebouncers (· = id)).Awaits other fp :=
      (awaits_dropDebouncers (by simpa using ho)).mpr ha
    exact hdrop.debouncers_eq rfl
  · rw [begun?_append_of_tacit hfx]
    rfl
  · intro other ho
    rw [tellsOf_append_of_tacit hfx, tellsOf_published]
    simpa using Ne.symm ho
  · intro other fp ha
    have hdrop : (w.dropDebouncers (· = id)).Pends other fp := ha.debouncers_eq rfl
    obtain ⟨ho, ha⟩ := pends_of_dropDebouncers hdrop
    exact ⟨by simpa using ho, ha⟩
  · intro other findings hmem
    rcases List.mem_append.mp hmem with hmem | hmem
    · exact absurd hmem (hfx.not_published other findings)
    · cases List.mem_singleton.mp hmem
      rfl

theorem stride_shutDown (w : Watch) : Stride now w .shutDown w.shutDown.1 w.shutDown.2 := by
  obtain ⟨fx, hfx, hc⟩ := cancelQueued_eq (fun _ => true)
    { w with debouncers := w.debouncers.map fun p => (p.1, p.2.disarm) }
  unfold shutDown
  rw [hc]
  refine .shutDown rfl rfl rfl rfl hfx ?_
  rintro other fp ⟨x, p, hx, -, hp, -⟩
  obtain ⟨y, -, rfl⟩ := List.mem_map.mp hx
  cases hp

end Watch

end SmellWatch
