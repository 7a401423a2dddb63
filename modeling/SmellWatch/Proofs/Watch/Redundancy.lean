import SmellWatch.Proofs.Watch.Provenance
/-! Analyses of texts whose result is known.

An edit asks the cache before it has a call wait, and a save asks it when no call waits;
the call itself does not.  A run remembers when a result for the text of a document was
cached last, since its text or the settings changed (`Run.cachedAt?`).  While a call waits,
what the cache has for its document is this result (`Run.attested`).  So in a run in which
time does not go back the cache has nothing for a text whenever its analysis is begun,
exactly if no analysis is begun after that result and before it has expired
(`always_beginsUncached_iff`). -/

namespace SmellWatch

namespace Watch

variable {now : Duration} {id : DocumentId} {fp : Fingerprint} {r : Run} {e : Event}
  {c : CacheEntry}

namespace Run

/-! ## Time -/

/-- When the last step happened. -/
def clock : Run → Duration
  | start _ _ now => now
  | next _ now _ => now

/-- Time does not go back. -/
def IsTimely : Run → Prop
  | start _ _ _ => True
  | next r now _ => r.IsTimely ∧ r.clock ≤ now

instance decidableIsTimely : (r : Run) → Decidable r.IsTimely
  | start _ _ _ => isTrue trivial
  | next r now _ =>
    have := decidableIsTimely r
    inferInstanceAs (Decidable (r.IsTimely ∧ r.clock ≤ now))

/-! ## What is known of a text -/

/-- The text that an open document has. -/
def text? (r : Run) (id : DocumentId) : Option Fingerprint := r.watch.store.text? id

/-- The time at which a result for the text of a document was cached last, since its text or
the settings changed. -/
def cachedAt? (id : DocumentId) : Run → Option Duration
  | start _ _ _ => none
  | next r now e =>
    if (next r now e).text? id = r.text? id ∧
        (next r now e).watch.store.config = r.watch.store.config then
      if (r.filing? e).any (·.key.document = id) then some now else r.cachedAt? id
    else none

/-- The key of a result for the text of a document under the settings as they are. -/
def key (r : Run) (id : DocumentId) (fp : Fingerprint) : CacheKey :=
  ⟨id, fp, r.watch.store.config⟩

/-- If the last step began an analysis, the cache had nothing for its text. -/
def BeginsUncached : Run → Prop
  | start _ _ _ => True
  | next r now e =>
    ∀ a remote, begun? (next r now e).effects = some (a, remote) →
      r.watch.store.getCached? now a.document = none

/-- If the last step began an analysis, what was cached for its text since the text and the
settings changed had expired. -/
def BeginsUnanswered : Run → Prop
  | start _ _ _ => True
  | next r now e =>
    ∀ a remote, begun? (next r now e).effects = some (a, remote) →
      ∀ t, r.cachedAt? a.document = some t → r.watch.store.maxCacheAge < now - t

end Run

/-! ## The cache, step by step -/

theorem filing?_config {f : Filing} (h : r.filing? e = some f) :
    f.key.config = r.watch.store.config := by
  unfold Run.filing? at h
  split at h
  · obtain ⟨x, -, hx⟩ := Option.bind_eq_some_iff.mp h
    split at hx
    · cases hx
      rfl
    · cases hx
  · cases h

/-- The age at which results expire is that of the beginning: it never changes. -/
theorem maxCacheAge_step (now : Duration) (e : Event) (w : Watch) :
    (w.step now e).1.store.maxCacheAge = w.store.maxCacheAge := by
  cases stride_step now e w with
  | still hstore => rw [hstore]
  | edited _ _ _ hstore => rw [hstore, DocumentStore.upsert_maxCacheAge]
  | replayed _ _ _ _ hreads _ _ _ hstore =>
    rw [hstore, DocumentStore.recordResult_maxCacheAge, maxCacheAge_of_reads hreads]
  | begun _ _ _ _ _ _ hstore =>
    rw [hstore]
    rfl
  | fellBack _ _ _ _ _ _ _ hstore =>
    rw [hstore, DocumentStore.recordResult_maxCacheAge]
    rfl
  | turned hstore => rw [hstore]
  | answered _ _ _ _ _ _ _ _ hstore => exact (TakesIn.of_completed hstore).maxCacheAge_eq
  | lapsed _ _ _ _ _ hstore => rw [hstore, DocumentStore.finishAnalysis_maxCacheAge]
  | closed _ hstore =>
    rw [hstore]
    rfl
  | reconfigured _ hstore => rw [hstore, DocumentStore.setConfig_maxCacheAge]
  | configSet _ hstore => rw [hstore, DocumentStore.setConfig_maxCacheAge]
  | shutDown hstore => rw [hstore]

theorem Run.maxCacheAge_next (r : Run) (now : Duration) (e : Event) :
    (r.next now e).watch.store.maxCacheAge = r.watch.store.maxCacheAge :=
  maxCacheAge_step now e r.watch

/-- A filing leaves one result under its key. -/
theorem Files.distinct {s s' : DocumentStore} {f : Filing} (h : Files now s f s')
    (hs : s.Distinct) : s'.Distinct := by
  unfold DocumentStore.Distinct
  rw [h.cache]
  refine List.Nodup.sublist (List.filter_sublist.map _) ?_
  rw [List.map_append]
  refine List.nodup_append.mpr ⟨hs.sublist (List.filter_sublist.map _), by simp, ?_⟩
  intro k hk l hl hkl
  obtain ⟨c, hc, rfl⟩ := List.mem_map.mp hk
  have hne := (List.mem_filter.mp hc).2
  simp only [List.map_cons, List.map_nil, List.mem_singleton] at hl
  simp [hkl, hl] at hne

theorem Run.distinct (r : Run) : r.watch.store.Distinct := by
  induction r with
  | start options config now => exact List.nodup_nil
  | next r now e ih =>
    cases caching r now e with
    | kept _ hcache _ =>
      unfold DocumentStore.Distinct
      rw [hcache]
      exact ih
    | filed f _ hfiles => exact hfiles.distinct ih
    | wiped _ hcache _ =>
      unfold DocumentStore.Distinct
      rw [hcache]
      exact List.nodup_nil
    | dropped id _ hcache _ _ =>
      unfold DocumentStore.Distinct
      rw [hcache]
      exact ih.sublist (List.filter_sublist.map _)

/-! ## Calls, step by step -/

/-- A call that waits after a step waited before, for the same text, or the cache has
nothing for the text that it was made for, or the settings have changed. -/
theorem pends_next (h : ∀ id fp, r.watch.Pends id fp → r.text? id = some fp)
    (hp : (r.next now e).watch.Pends id fp) :
    (r.next now e).text? id = some fp ∧
      ((r.watch.Pends id fp ∧ (r.next now e).text? id = r.text? id) ∨
        (r.next now e).watch.store.getCached? now id = none ∨
        (r.next now e).watch.store.config ≠ r.watch.store.config) := by
  -- a call that waited before is for the text, if that is the same
  have hold : r.watch.Pends id fp → (r.next now e).text? id = r.text? id →
      (r.next now e).text? id = some fp ∧
        ((r.watch.Pends id fp ∧ (r.next now e).text? id = r.text? id) ∨
          (r.next now e).watch.store.getCached? now id = none ∨
          (r.next now e).watch.store.config ≠ r.watch.store.config) :=
    fun hp ht => ⟨ht.trans (h id fp hp), .inl ⟨hp, ht⟩⟩
  unfold Run.text? at hold ⊢
  cases r.stride now e with
  | still hstore _ _ _ _ _ _ hback => exact hold (hback id fp hp) (by rw [hstore])
  | edited doc content hnews hstore _ _ _ _ _ _ _ hback hmissed =>
    rcases hback id fp hp with ⟨rfl, rfl⟩ | ⟨hne, hp⟩
    · refine ⟨?_, .inr (.inl hmissed)⟩
      rw [hstore]
      exact DocumentStore.text?_upsert_self hnews
    · exact hold hp (by rw [hstore, DocumentStore.text?_upsert_of_ne hne])
  | replayed doc s d findings hreads _ _ _ hstore _ _ _ _ _ _ hback =>
    obtain ⟨hne, hp⟩ := hback id fp hp
    refine hold hp ?_
    rw [hstore, DocumentStore.text?_recordResult]
    rcases hreads with rfl | ⟨content, -, rfl⟩
    · rfl
    · exact DocumentStore.text?_upsert_of_ne hne
  | begun doc d a _ _ _ hstore _ _ _ _ _ _ _ hback =>
    refine hold (hback id fp hp).2 ?_
    rw [hstore, DocumentStore.text?_engaged]
  | fellBack doc d a findings _ _ _ hstore _ _ _ _ _ _ hback =>
    refine hold (hback id fp hp).2 ?_
    rw [hstore, DocumentStore.text?_recordResult, DocumentStore.text?_engaged]
  | turned hstore _ _ hdebouncers =>
    exact hold (hp.debouncers_eq hdebouncers.symm) (by rw [hstore])
  | answered o outcome d findings _ _ _ _ hstore _ _ hdebouncers =>
    exact hold (hp.debouncers_eq hdebouncers.symm) ((TakesIn.of_completed hstore).text?_eq id)
  | lapsed o outcome _ _ _ hstore _ _ hdebouncers =>
    refine hold (hp.debouncers_eq hdebouncers.symm) ?_
    rw [hstore, DocumentStore.text?_finishAnalysis]
  | closed doc hstore _ _ _ _ _ _ hback =>
    obtain ⟨hne, hp⟩ := hback id fp hp
    refine hold hp ?_
    rw [hstore]
    exact DocumentStore.text?_remove_of_ne hne
  | reconfigured config hstore _ _ _ _ _ _ hback =>
    have htext : (r.next now e).watch.store.text? id = r.watch.store.text? id := by
      rw [hstore, DocumentStore.text?_setConfig]
    rcases hback id fp hp with hp | ⟨d, hd, hfp, hchanged | ⟨x, hx⟩⟩
    · exact hold hp htext
    · refine ⟨?_, .inr (.inr ?_)⟩
      · rw [htext, DocumentStore.text?_of_get? hd, hfp]
      · rw [hstore, DocumentStore.setConfig_config]
        exact Ne.symm hchanged
    · -- the call that waited was for the same text
      have hsame : some d.fingerprint = some x :=
        (DocumentStore.text?_of_get? hd).symm.trans (h id x hx)
      cases Option.some.inj hsame
      exact hold (hfp ▸ hx) htext
  | configSet config hstore _ _ hdebouncers =>
    refine hold (hp.debouncers_eq hdebouncers.symm) ?_
    rw [hstore, DocumentStore.text?_setConfig]
  | shutDown _ _ _ _ _ hback => exact absurd hp (hback id fp)

/-- A call waits for the text that its document has. -/
theorem Run.text?_of_pends {r : Run} (h : r.watch.Pends id fp) : r.text? id = some fp := by
  induction r generalizing id fp with
  | start options config now =>
    obtain ⟨x, p, hx, -⟩ := h
    exact absurd hx List.not_mem_nil
  | next r now e ih => exact (pends_next (fun _ _ => ih) h).1

/-! ## What the cache has while a call waits -/

/-- What is remembered to be cached is there, until it expires; and nothing else is while a
call waits. -/
structure Attested (r : Run) : Prop where
  there : ∀ id fp t, r.cachedAt? id = some t → r.text? id = some fp →
    (∃ c ∈ r.watch.store.cache, c.key = r.key id fp ∧ c.storedAt = t) ∨
      r.watch.store.maxCacheAge < r.clock - t
  alone : ∀ id fp, r.watch.Pends id fp → ∀ c ∈ r.watch.store.cache, c.key = r.key id fp →
    r.cachedAt? id = some c.storedAt ∨ r.watch.store.isExpired r.clock c = true

theorem cachedAt?_next (ht : (r.next now e).text? id = r.text? id)
    (hconfig : (r.next now e).watch.store.config = r.watch.store.config) :
    (r.next now e).cachedAt? id =
      if (r.filing? e).any (·.key.document = id) then some now else r.cachedAt? id :=
  if_pos ⟨ht, hconfig⟩

theorem isExpired_next (r : Run) (now : Duration) (e : Event) (t : Duration) (c : CacheEntry) :
    (r.next now e).watch.store.isExpired t c = r.watch.store.isExpired t c := by
  unfold DocumentStore.isExpired
  rw [r.maxCacheAge_next now e]

/-- A filing for a document is about its text, under the settings as they are. -/
theorem Files.key_eq {f : Filing}
    (h : Files now r.watch.store f (r.next now e).watch.store)
    (ht : (r.next now e).text? f.key.document = some fp) :
    f.key = (r.next now e).key f.key.document fp := by
  obtain ⟨d, hd, hfp⟩ := h.entry
  have hcontent : some f.key.content = some fp := by
    rw [← ht, ← hfp]
    exact (DocumentStore.text?_of_get? hd).symm
  unfold Run.key
  rw [h.config, ← Option.some.inj hcontent]

theorem Files.config_eq {f : Filing} (hf : r.filing? e = some f)
    (h : Files now r.watch.store f (r.next now e).watch.store) :
    (r.next now e).watch.store.config = r.watch.store.config :=
  h.config.trans (filing?_config hf)

theorem Files.mem_iff {s s' : DocumentStore} {f : Filing} (h : Files now s f s') :
    c ∈ s'.cache ↔ s.isExpired now c = false ∧
      ((c ∈ s.cache ∧ c.key ≠ f.key) ∨ c = ⟨f.key, f.findings, now⟩) := by
  rw [h.cache, List.mem_filter, List.mem_append, List.mem_filter, List.mem_singleton,
    Bool.not_eq_true', decide_eq_true_eq, and_comm]

theorem Files.mem_new {s s' : DocumentStore} {f : Filing} (h : Files now s f s') :
    ⟨f.key, f.findings, now⟩ ∈ s'.cache := by
  refine h.mem_iff.mpr ⟨?_, .inr rfl⟩
  unfold DocumentStore.isExpired
  simp

namespace Attested

theorem start (options : WatchOptions) (config : Fingerprint) (now : Duration) :
    Attested (.start options config now) where
  there := fun _ _ _ hcached => nomatch hcached
  alone := fun _ _ _ _ hc => absurd hc List.not_mem_nil

section Next

variable (h : Attested r) (hle : r.clock ≤ now)

include h hle

theorem there_next (e : Event) (id : DocumentId) (fp : Fingerprint) (t : Duration)
    (hcached : (r.next now e).cachedAt? id = some t) (htext : (r.next now e).text? id = some fp) :
    (∃ c ∈ (r.next now e).watch.store.cache,
      c.key = (r.next now e).key id fp ∧ c.storedAt = t) ∨
      (r.next now e).watch.store.maxCacheAge < (r.next now e).clock - t := by
  have hsame : (r.next now e).text? id = r.text? id ∧
      (r.next now e).watch.store.config = r.watch.store.config := by
    by_contra hnot
    unfold Run.cachedAt? at hcached
    rw [if_neg hnot] at hcached
    cases hcached
  obtain ⟨ht, hconfig⟩ := hsame
  have hkey : (r.next now e).key id fp = r.key id fp := by
    unfold Run.key
    rw [hconfig]
  rw [cachedAt?_next ht hconfig] at hcached
  -- what was cached before is there still, or has expired
  have hold : r.cachedAt? id = some t →
      (∀ c ∈ r.watch.store.cache, c.key = r.key id fp → r.watch.store.isExpired now c = false →
        c ∈ (r.next now e).watch.store.cache) →
      (∃ c ∈ (r.next now e).watch.store.cache,
        c.key = (r.next now e).key id fp ∧ c.storedAt = t) ∨
        (r.next now e).watch.store.maxCacheAge < (r.next now e).clock - t := by
    intro hpast hkept
    rw [r.maxCacheAge_next now e, hkey]
    show _ ∨ r.watch.store.maxCacheAge < now - t
    rcases h.there id fp t hpast (ht ▸ htext) with ⟨c, hc, hck, hct⟩ | hexpired
    · cases hfresh : r.watch.store.isExpired now c with
      | false => exact .inl ⟨c, hkept c hc hck hfresh, hck, hct⟩
      | true =>
        unfold DocumentStore.isExpired at hfresh
        rw [decide_eq_true_eq, hct] at hfresh
        exact .inr hfresh
    · exact .inr (Nat.lt_of_lt_of_le hexpired (Nat.sub_le_sub_right hle t))
  cases caching r now e with
  | kept hnone hcache _ =>
    rw [hnone] at hcached
    refine hold hcached fun c hc _ _ => ?_
    rw [hcache]
    exact hc
  | filed f hf hfiles =>
    rw [hf, Option.any_some] at hcached
    by_cases hdocument : f.key.document = id
    · subst hdocument
      rw [if_pos (by simp)] at hcached
      exact .inl ⟨_, hfiles.mem_new, hfiles.key_eq htext, Option.some.inj hcached⟩
    · rw [if_neg (by simpa using hdocument)] at hcached
      refine hold hcached fun c hc hck hfresh => hfiles.mem_iff.mpr ⟨hfresh, .inl ⟨hc, ?_⟩⟩
      intro hcf
      exact hdocument (congrArg CacheKey.document (hcf.symm.trans hck))
  | wiped _ _ hchanged => exact absurd hconfig hchanged
  | dropped doc hnone hcache _ hgone =>
    rw [hnone] at hcached
    refine hold hcached fun c hc hck _ => ?_
    rw [hcache]
    refine List.mem_filter.mpr ⟨hc, ?_⟩
    rw [decide_eq_true_eq, hck]
    rintro rfl
    rw [show (r.next now e).text? id = none from hgone] at htext
    cases htext

theorem alone_next (e : Event) (id : DocumentId) (fp : Fingerprint)
    (hp : (r.next now e).watch.Pends id fp) (c : CacheEntry)
    (hc : c ∈ (r.next now e).watch.store.cache) (hck : c.key = (r.next now e).key id fp) :
    (r.next now e).cachedAt? id = some c.storedAt ∨
      (r.next now e).watch.store.isExpired (r.next now e).clock c = true := by
  obtain ⟨htext, ⟨hpast, ht⟩ | hmissed | hchanged⟩ := pends_next (fun _ _ => Run.text?_of_pends) hp
  · -- the call has waited on
    have hold : (r.next now e).watch.store.config = r.watch.store.config →
        c ∈ r.watch.store.cache → (r.next now e).cachedAt? id = r.cachedAt? id →
        (r.next now e).cachedAt? id = some c.storedAt ∨
          (r.next now e).watch.store.isExpired (r.next now e).clock c = true := by
      intro hconfig hmem hcached
      have hkey : c.key = r.key id fp := by
        rw [hck]
        unfold Run.key
        rw [hconfig]
      rw [hcached, isExpired_next]
      rcases h.alone id fp hpast c hmem hkey with hthere | hexpired
      · exact .inl hthere
      · exact .inr (DocumentStore.isExpired_mono hexpired hle)
    cases caching r now e with
    | kept hnone hcache hconfig =>
      refine hold hconfig (hcache ▸ hc) ?_
      rw [cachedAt?_next ht hconfig, hnone]
      rfl
    | filed f hf hfiles =>
      have hconfig := hfiles.config_eq hf
      have hcached := cachedAt?_next ht hconfig
      rw [hf, Option.any_some] at hcached
      obtain ⟨-, ⟨hmem, hne⟩ | rfl⟩ := hfiles.mem_iff.mp hc
      · refine hold hconfig hmem ?_
        rw [hcached]
        refine if_neg ?_
        rw [decide_eq_true_eq]
        rintro rfl
        exact hne (hck.trans (hfiles.key_eq htext).symm)
      · rw [hcached]
        have hdocument : f.key.document = id := congrArg CacheKey.document hck
        exact .inl (if_pos (by simpa using hdocument))
    | wiped _ hcache _ =>
      rw [hcache] at hc
      exact absurd hc List.not_mem_nil
    | dropped doc hnone hcache hconfig _ =>
      rw [hcache] at hc
      refine hold hconfig (List.mem_filter.mp hc).1 ?_
      rw [cachedAt?_next ht hconfig, hnone]
      rfl
  · -- the call was made now, and what the cache has for its text has expired
    have hall := (DocumentStore.getCached?_eq_none_iff (r.next now e).distinct htext).mp hmissed
    exact .inr (hall c hc hck)
  · cases caching r now e with
    | kept _ _ hconfig => exact absurd hconfig hchanged
    | filed f hf hfiles => exact absurd (hfiles.config_eq hf) hchanged
    | wiped _ hcache _ =>
      rw [hcache] at hc
      exact absurd hc List.not_mem_nil
    | dropped _ _ _ hconfig _ => exact absurd hconfig hchanged

end Next

end Attested

theorem Run.attested {r : Run} (h : r.IsTimely) : Attested r := by
  induction r with
  | start options config now => exact .start options config now
  | next r now e ih =>
    obtain ⟨hpast, hle⟩ := h
    exact ⟨(ih hpast).there_next hle e, (ih hpast).alone_next hle e⟩

/-! ## Analyses that are begun -/

/-- The cache has nothing for the text of an analysis that is begun, exactly if what was
cached for it since the text and the settings changed has expired. -/
theorem beginsUncached_iff (h : (r.next now e).IsTimely) :
    (r.next now e).BeginsUncached ↔ (r.next now e).BeginsUnanswered := by
  obtain ⟨hpast, hle⟩ := h
  have hattested := Run.attested hpast
  constructor
  · intro huncached a remote ha t hcached
    obtain ⟨d, hopen, -⟩ := Run.begins ha
    have htext : r.text? a.document = some d.fingerprint := DocumentStore.text?_of_get? hopen
    rcases hattested.there a.document d.fingerprint t hcached htext with
      ⟨c, hc, hck, hct⟩ | hexpired
    · have hall := (DocumentStore.getCached?_eq_none_iff r.distinct htext).mp
        (huncached a remote ha)
      have hexpired := hall c hc hck
      unfold DocumentStore.isExpired at hexpired
      rw [decide_eq_true_eq, hct] at hexpired
      exact hexpired
    · exact Nat.lt_of_lt_of_le hexpired (Nat.sub_le_sub_right hle t)
  · intro hunanswered a remote ha
    obtain ⟨d, hopen, -, hnone | hpends, -⟩ := Run.begins ha
    · exact hnone
    · have htext : r.text? a.document = some d.fingerprint := DocumentStore.text?_of_get? hopen
      refine (DocumentStore.getCached?_eq_none_iff r.distinct htext).mpr fun c hc hck => ?_
      rcases hattested.alone a.document d.fingerprint hpends c hc hck with hcached | hexpired
      · exact decide_eq_true (hunanswered a remote ha _ hcached)
      · exact DocumentStore.isExpired_mono hexpired hle

/-- In a run in which time does not go back, the cache has nothing for a text whenever its
analysis is begun, exactly if no analysis is begun of a text for which a result was cached
since it came, under the settings as they are, and has not expired. -/
theorem always_beginsUncached_iff (r : Run) (h : r.IsTimely) :
    r.Always Run.BeginsUncached ↔ r.Always Run.BeginsUnanswered := by
  induction r with
  | start options config now => exact Iff.rfl
  | next r now e ih => exact and_congr (ih h.1) (beginsUncached_iff h)

/-- While the service is asked about a text, it is edited and brought back; then the service
answers. -/
def Run.backAndAnswered : Run :=
  let edited := Duration.ofMillis 600
  let answered := Duration.ofMillis 800
  asking.after
    [(edited, .changed ⟨"a.go"⟩ "y"), (edited, .changed ⟨"a.go"⟩ "x"),
      (answered, .answered 0 (.returned (.ok [.basic "F1" "F1" .warning "F1"]))),
      (answered, .ran .worker), (answered, .ran (.completion 0))]

theorem always_beginsUncached_iff_backAndAnswered :
    Run.backAndAnswered.IsTimely ∧
      (Run.backAndAnswered.Always Run.BeginsUncached ↔
        Run.backAndAnswered.Always Run.BeginsUnanswered) := by
  have htimely : Run.backAndAnswered.IsTimely := by decide
  exact ⟨htimely, always_beginsUncached_iff _ htimely⟩

/-- The text that was brought back is analyzed once more, though its result is cached. -/
theorem not_beginsUncached_backAndAnswered :
    (Run.backAndAnswered.leftAlone ⟨2, 3⟩ (Duration.ofMillis 1100)).IsTimely ∧
      ¬ (Run.backAndAnswered.leftAlone ⟨2, 3⟩ (Duration.ofMillis 1100)).BeginsUncached := by
  refine ⟨by decide, fun h => ?_⟩
  obtain ⟨hbegun, hcached⟩ :
      (begun? (Run.backAndAnswered.leftAlone ⟨2, 3⟩ (Duration.ofMillis 1100)).effects).map
        (·.1.document) = some ⟨"a.go"⟩ ∧
      (Run.backAndAnswered.watch.store.getCached? (Duration.ofMillis 1100) ⟨"a.go"⟩).isSome =
        true := by
    decide +kernel
  obtain ⟨⟨a, remote⟩, ha, hdocument⟩ := Option.map_eq_some_iff.mp hbegun
  have hnone := h a remote ha
  rw [show a.document = ⟨"a.go"⟩ from hdocument] at hnone
  rw [hnone] at hcached
  cases hcached

end Watch

end SmellWatch
