import SmellWatch.Proofs.Pacing.Pursuit
import SmellWatch.Proofs.Watch.Stride
/-! The settings by which a watch works: its options, the service it asks, how long requests
may wait, and the rates of its token buckets.

They change when others are adopted (`sameSettings_reconfigure`) and in no other step
(`sameSettings_step`).  Most parts of a step do not touch the calls that wait either
(`Inert`). -/

namespace SmellWatch

/-! ## Parts that a watch is made of -/

namespace RequestQueue

variable {α β ε : Type}

theorem reap_maxAge (q : RequestQueue α β ε) : q.reap.1.maxAge = q.maxAge := by
  unfold reap
  split
  · rfl
  · split <;> rfl

theorem turn_maxAge (now : Duration) (q : RequestQueue α β ε) :
    (q.turn now).1.maxAge = q.maxAge := by
  unfold turn
  dsimp only
  split
  · exact q.reap_maxAge
  · unfold startNext
    split <;> exact q.reap_maxAge

end RequestQueue

namespace Watch

variable {now : Duration} {id : DocumentId} {fp : Fingerprint} {w w' w'' : Watch} {e : Event}

/-! ## What stays -/

/-- Two watches work by the same settings. -/
structure SameSettings (w w' : Watch) : Prop where
  options : w'.options = w.options
  service : w'.service = w.service
  maxAge : w'.queue.maxAge = w.queue.maxAge
  rates : w'.buckets.map (·.capacity) = w.buckets.map (·.capacity)

/-- Two watches work by the same settings, and the same calls wait. -/
structure Inert (w w' : Watch) : Prop extends SameSettings w w' where
  debouncers : w'.debouncers = w.debouncers

namespace SameSettings

theorem refl (w : Watch) : SameSettings w w := ⟨rfl, rfl, rfl, rfl⟩

theorem trans (h : SameSettings w w') (k : SameSettings w' w'') : SameSettings w w'' :=
  ⟨k.options.trans h.options, k.service.trans h.service, k.maxAge.trans h.maxAge,
    k.rates.trans h.rates⟩

theorem bucket_eq (h : SameSettings w w') : w'.bucket = w.bucket := by
  have hlength := congrArg List.length h.rates
  rw [List.length_map, List.length_map] at hlength
  unfold bucket
  rw [hlength]

/-- The analysis that is begun of a text is the same. -/
theorem analysisOf_eq (h : SameSettings w w') (id : DocumentId) (d : DocumentEntry) :
    w'.analysisOf id d = w.analysisOf id d := by
  unfold analysisOf
  rw [h.options, h.service, h.bucket_eq]

end SameSettings

namespace Inert

theorem of_eq (hoptions : w'.options = w.options) (hservice : w'.service = w.service)
    (hmaxAge : w'.queue.maxAge = w.queue.maxAge) (hbuckets : w'.buckets = w.buckets)
    (hdebouncers : w'.debouncers = w.debouncers) : Inert w w' :=
  ⟨⟨hoptions, hservice, hmaxAge, by rw [hbuckets]⟩, hdebouncers⟩

theorem refl (w : Watch) : Inert w w := ⟨.refl w, rfl⟩

theorem trans (h : Inert w w') (k : Inert w' w'') : Inert w w'' :=
  ⟨h.toSameSettings.trans k.toSameSettings, k.debouncers.trans h.debouncers⟩

end Inert

theorem inert_fallBack (now : Duration) (a : Analysis) (lead : Option Finding) (w : Watch) :
    Inert w (w.fallBack now a lead).1 := by
  unfold fallBack
  dsimp only
  split <;> exact .of_eq rfl rfl rfl rfl rfl

theorem inert_deliverCached (now : Duration) (id : DocumentId) (fp : Fingerprint) (w : Watch) :
    Inert w (w.deliverCached now id fp).2.1 := by
  unfold deliverCached
  split
  · exact .refl w
  · split <;> exact .of_eq rfl rfl rfl rfl rfl

theorem inert_trigger (now : Duration) (id : DocumentId) (w : Watch) :
    Inert w (w.trigger now id).1 := by
  unfold trigger
  split
  · exact .refl w
  · rename_i d store _
    have hstore : Inert w { w with store } := .of_eq rfl rfl rfl rfl rfl
    dsimp only
    split
    · exact hstore.trans (inert_fallBack now _ none _)
    · exact .of_eq rfl rfl rfl rfl rfl

theorem inert_fire (now : Duration) (id : DocumentId) (fp : Fingerprint) (w : Watch) :
    Inert w (w.fire now id fp).1 := by
  unfold fire
  split
  · exact inert_trigger now id w
  · exact .refl w

theorem inert_takeTurn (now : Duration) (w : Watch) : Inert w (w.takeTurn now).1 := by
  unfold takeTurn
  split
  · exact .refl w
  · dsimp only
    split <;> exact .of_eq rfl rfl (w.queue.turn_maxAge now) rfl rfl

theorem inert_follow (ticket : Nat) (a : Analysis) (next : Pursuit.Next (List Finding))
    (p : Pursuit) (w : Watch) : Inert w (w.follow ticket a next p).1 := by
  cases next <;> exact .of_eq rfl rfl rfl rfl rfl

/-- A bucket keeps its rate when it is drawn on. -/
theorem inert_drawOn {γ : Type} {i : Nat} {f : TokenBucket Float → γ × TokenBucket Float} {x : γ}
    (hf : ∀ b, (f b).2.capacity = b.capacity) (h : w.drawOn i f = some (x, w')) : Inert w w' := by
  unfold drawOn at h
  obtain ⟨b, hb, hw⟩ := Option.map_eq_some_iff.mp h
  obtain ⟨-, rfl⟩ := Prod.mk.inj hw
  refine ⟨⟨rfl, rfl, rfl, ?_⟩, rfl⟩
  rw [List.map_set, hf b]
  refine List.ext_getElem? fun j => ?_
  rw [List.getElem?_set]
  split
  · rename_i hij
    subst hij
    rw [List.getElem?_map, hb]
    simp [(List.getElem?_eq_some_iff.mp hb).1]
  · rfl

theorem inert_goOn (now : Duration) (ticket : Nat) (w : Watch) :
    Inert w (w.goOn now ticket).1 := by
  unfold goOn
  split
  · rename_i x a p _ _
    split
    · exact .refl w
    · split
      · exact .refl w
      · rename_i hdraw
        refine (inert_drawOn ?_ hdraw).trans (inert_follow ticket _ _ _ _)
        exact fun b => Pursuit.resume_keeps.2
  · exact .refl w

theorem inert_answered (now : Duration) (ticket : Nat) (reply : Reply) (w : Watch) :
    Inert w (w.answered now ticket reply).1 := by
  unfold answered
  split
  · split
    · exact .refl w
    · cases reply with
      | panicked => exact .of_eq rfl rfl rfl rfl rfl
      | returned answer => exact inert_follow ticket _ _ _ w
  · exact .refl w

theorem inert_complete (now : Duration) (ticket : Nat) (w : Watch) :
    Inert w (w.complete now ticket).1 := by
  have hconclude : ∀ (a : Analysis) (o : Outcome) (w : Watch), Inert w (w.conclude now a o).1 := by
    intro a o w
    unfold conclude
    cases verdict o with
    | found findings =>
      dsimp only
      split <;> exact .of_eq rfl rfl rfl rfl rfl
    | failed x =>
      obtain ⟨lead, refused, hnotice⟩ := noticeFor_eq x w
      dsimp only
      rw [hnotice]
      have hrefused : Inert w { w with refused } := .of_eq rfl rfl rfl rfl rfl
      exact hrefused.trans (inert_fallBack now a lead _)
    | dropped => exact .of_eq rfl rfl rfl rfl rfl
  unfold complete
  split
  · exact .refl w
  · split
    · exact .refl w
    · rename_i o _ _ outcome _
      have howed : Inert w { w with owed := w.owed.filter (·.ticket ≠ ticket) } :=
        .of_eq rfl rfl rfl rfl rfl
      exact howed.trans (hconclude o.analysis outcome _)

/-! ## Steps of the editor -/

theorem sameSettings_setDebouncer (w : Watch) (id : DocumentId) (d : Debouncer Fingerprint) :
    SameSettings w (w.setDebouncer id d) := by
  unfold setDebouncer
  split <;> exact ⟨rfl, rfl, rfl, rfl⟩

theorem sameSettings_schedule (now : Duration) (id : DocumentId) (fp : Fingerprint) (w : Watch) :
    SameSettings w (w.schedule now id fp).1 := by
  have hcounted : SameSettings w { w with timers := w.timers + 1 } := ⟨rfl, rfl, rfl, rfl⟩
  exact hcounted.trans (sameSettings_setDebouncer _ id _)

theorem sameSettings_flushed (w : Watch) (id : DocumentId) : SameSettings w (w.flushed id) := by
  unfold flushed
  split
  · exact sameSettings_setDebouncer w id _
  · exact .refl w

/-- All that a save does to the calls that wait is that it takes one away. -/
theorem inert_save (now : Duration) (id : DocumentId) (w : Watch) :
    Inert (w.flushed id) (w.save now id).1 := by
  rw [save_eq]
  split
  · exact inert_fire now id _ _
  · split
    · exact .refl _
    · rename_i d _
      have hdelivered := inert_deliverCached now id d.fingerprint (w.flushed id)
      split
      · exact .refl _
      · split
        · rename_i hd
          rw [hd] at hdelivered
          exact hdelivered
        · rename_i hd
          rw [hd] at hdelivered
          exact hdelivered.trans (inert_trigger now id _)

theorem sameSettings_update (now : Duration) (id : DocumentId) (content : String) (w : Watch) :
    SameSettings w (w.update now id content).1 := by
  by_cases hnews : w.store.IsNews id (Fingerprint.ofText content)
  · have hstore : ∀ store, SameSettings w { w with store } := fun _ => ⟨rfl, rfl, rfl, rfl⟩
    cases hc : (w.store.upsert id content).2.getCached? now id with
    | none =>
      rw [update_missed hnews hc]
      exact (hstore _).trans (sameSettings_schedule now id _ _)
    | some findings =>
      rw [update_cached hnews hc]
      exact (hstore _).trans (sameSettings_flushed _ id)
  · rw [update_same now hnews]
    exact .refl w

theorem sameSettings_quiet (now : Duration) (id : DocumentId) (timer : Debouncer.Timer)
    (w : Watch) :
    SameSettings w (w.quiet now id timer).1 := by
  unfold quiet
  split
  · exact .refl w
  · split
    · exact .refl w
    · exact (sameSettings_setDebouncer w id _).trans (inert_fire now id _ _).toSameSettings

theorem sameSettings_step (h : e.isReconfigured = false) : SameSettings w (w.step now e).1 := by
  cases e with
  | opened id content => exact sameSettings_update now id content w
  | changed id content => exact sameSettings_update now id content w
  | saved id => exact (sameSettings_flushed w id).trans (inert_save now id w).toSameSettings
  | closed id => exact ⟨rfl, rfl, rfl, rfl⟩
  | reconfigured options config => cases h
  | configSet config => exact ⟨rfl, rfl, rfl, rfl⟩
  | shutDown => exact ⟨rfl, rfl, rfl, rfl⟩
  | ran t =>
    cases t with
    | debounce id timer due =>
      unfold step run
      dsimp only
      split
      · exact .refl w
      · exact sameSettings_quiet now id timer w
    | worker => exact (inert_takeTurn now w).toSameSettings
    | work ticket => exact (inert_goOn now ticket w).toSameSettings
    | completion ticket => exact (inert_complete now ticket w).toSameSettings
  | answered ticket reply => exact (inert_answered now ticket reply w).toSameSettings

/-! ## Other settings -/

theorem sameSettings_scheduleAll (now : Duration) (ids : List DocumentId) (w : Watch) :
    SameSettings w (scheduleAll now ids w).1 := by
  induction ids generalizing w with
  | nil => exact .refl w
  | cons id r ih =>
    unfold scheduleAll
    split
    · exact ih w
    · exact (sameSettings_schedule now id _ w).trans (ih _)

/-- The options that an event brings. -/
def Event.options? : Event → Option WatchOptions
  | .reconfigured options _ => some options
  | _ => none

theorem sameSettings_reconfigure (now : Duration) (options : WatchOptions) (config : Fingerprint)
    (w : Watch) :
    SameSettings (w.adopting now options config) (w.reconfigure now options config).1 := by
  rw [reconfigure_eq]
  exact sameSettings_scheduleAll now _ _

/-- The options in force are those that were adopted last. -/
theorem options_step (now : Duration) (e : Event) (w : Watch) :
    (w.step now e).1.options = e.options?.getD w.options := by
  cases he : e.isReconfigured with
  | true =>
    cases e with
    | reconfigured options config => exact (sameSettings_reconfigure now options config w).options
    | _ => cases he
  | false =>
    rw [(sameSettings_step he).options]
    cases e with
    | reconfigured options config => cases he
    | _ => rfl

end Watch

end SmellWatch
