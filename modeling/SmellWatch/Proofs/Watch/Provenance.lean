import SmellWatch.Proofs.Watch.Docket
/-! Where cached results come from.

A result comes into the cache when an analysis is completed with what the service found
(`Filing`).  It is filed under the settings of that moment; its analysis was begun under
the settings of an earlier one.  What a look-up finds is the last filing under its key
(`Run.sourced`).  So what the cache has belongs to the settings as they are, throughout a
run, exactly if the settings of the two moments are the same for every filing
(`always_cachedIsCurrent_iff`). -/

namespace SmellWatch

namespace Watch

variable {now : Duration} {id : DocumentId} {r : Run} {e : Event}

/-- A result that was cached. -/
structure Filing where
  key : CacheKey
  findings : List Finding
  /-- The settings that were in force when its analysis was begun. -/
  begunUnder : Fingerprint

namespace Run

/-- The result that an event brings into the cache: what the service found in the text
that a document still has. -/
def filing? (r : Run) (e : Event) : Option Filing :=
  match r.watch.concluded? e with
  | some (t, .ok raw) =>
    (r.caseOf? t).bind fun c =>
      if (r.get? c.document).any (·.fingerprint = c.text) then
        some
          { key := ⟨c.document, c.text, r.watch.store.config⟩
            findings := r.watch.options.filter raw
            begunUnder := c.config }
      else none
  | _ => none

/-- The results that were cached, the newest first. -/
def filed : Run → List Filing
  | start _ _ _ => []
  | next r _ e => (r.filing? e).toList ++ r.filed

/-- The last result that was cached under a key. -/
def filingOf? (r : Run) (key : CacheKey) : Option Filing := r.filed.find? (·.key = key)

/-- What the cache has for a document is the last result that was cached for its text, and
its analysis was begun under the settings as they are. -/
def CachedIsCurrent (r : Run) : Prop :=
  ∀ now id findings, r.watch.store.getCached? now id = some findings →
    ∃ d f, r.get? id = some d ∧
      r.filingOf? ⟨id, d.fingerprint, r.watch.store.config⟩ = some f ∧
      f.findings = findings ∧ f.begunUnder = r.watch.store.config

end Run

/-! ## What a step does to the cache -/

theorem filing?_of_none (h : r.watch.concluded? e = none) : r.filing? e = none := by
  unfold Run.filing?
  rw [h]

theorem filing?_of_not_ok {t : Nat} {x : Outcome} (h : r.watch.concluded? e = some (t, x))
    (hx : ∀ raw, x ≠ .ok raw) : r.filing? e = none := by
  unfold Run.filing?
  rw [h]
  cases x with
  | error _ => rfl
  | ok raw => exact absurd rfl (hx raw)

theorem filing?_of_ok {t : Nat} {raw : List Finding} {c : Case} (hc : c ∈ r.cases)
    (ht : c.ticket = some t) (h : r.watch.concluded? e = some (t, .ok raw)) :
    r.filing? e =
      if (r.get? c.document).any (·.fingerprint = c.text) then
        some
          { key := ⟨c.document, c.text, r.watch.store.config⟩
            findings := r.watch.options.filter raw
            begunUnder := c.config }
      else none := by
  unfold Run.filing?
  rw [h]
  dsimp only
  rw [Run.caseOf?_eq_some hc ht]
  rfl

/-- A filing takes the place of what was cached under its key, and what has expired goes. -/
structure Files (now : Duration) (s : DocumentStore) (f : Filing) (s' : DocumentStore) : Prop where
  cache : s'.cache = List.filter (!s.isExpired now ·)
    (s.cache.filter (·.key ≠ f.key) ++ [⟨f.key, f.findings, now⟩])
  config : s'.config = f.key.config
  entry : ∃ d, s'.get? f.key.document = some d ∧ d.fingerprint = f.key.content

/-- A completed analysis whose result is accepted files it. -/
theorem files_of_ok {o : Owed} {raw : List Finding} {d : DocumentEntry}
    (ho : o ∈ r.watch.owed) (hevent : r.watch.concluded? e = some (o.ticket, .ok raw))
    (hopen : r.watch.store.get? o.analysis.document = some d)
    (htext : d.fingerprint = o.analysis.fingerprint)
    (hstore : (r.next now e).watch.store = (r.watch.store.setResult now o.analysis.document
      d.fingerprint (r.watch.options.filter raw)).2) :
    ∃ f, r.filing? e = some f ∧ Files now r.watch.store f (r.next now e).watch.store := by
  obtain ⟨c, hc, hct, hca, -⟩ := r.docket.caseOfOwed o ho
  have hdocument : c.document = o.analysis.document := congrArg Analysis.document hca
  have hctext : c.text = d.fingerprint := (congrArg Analysis.fingerprint hca).trans htext.symm
  have hentry : r.get? o.analysis.document = some d := hopen
  refine ⟨_, (filing?_of_ok hc hct hevent).trans (if_pos ?_), ?_, ?_, ?_⟩
  · rw [hdocument, hctext, hentry]
    simp
  · dsimp only
    rw [hstore, hdocument, hctext]
    refine DocumentStore.setResult_cache ?_
    rw [DocumentStore.setResult_fst, DocumentStore.recordResult_fst, hopen]
    simp
  · rw [hstore, DocumentStore.setResult_config]
  · refine ⟨DocumentStore.answered now (r.watch.options.filter raw) d, ?_, hctext.symm⟩
    dsimp only
    rw [hstore, hdocument, DocumentStore.get?_setResult]
    exact DocumentStore.get?_recordResult_self hopen rfl

/-- A completed analysis whose result nobody wants files nothing. -/
theorem filing?_of_lapsed {o : Owed} {outcome : Outcome} (ho : o ∈ r.watch.owed)
    (hevent : r.watch.concluded? e = some (o.ticket, outcome))
    (hwhy : verdict outcome = .dropped ∨ ∀ d, r.watch.store.get? o.analysis.document = some d →
      d.fingerprint ≠ o.analysis.fingerprint) : r.filing? e = none := by
  cases outcome with
  | error x => exact filing?_of_not_ok hevent fun raw hraw => nomatch hraw
  | ok raw =>
    obtain ⟨c, hc, hct, hca, -⟩ := r.docket.caseOfOwed o ho
    rw [filing?_of_ok hc hct hevent]
    refine if_neg ?_
    rcases hwhy with hwhy | hwhy
    · cases hwhy
    · rw [Case.document, Case.text, hca]
      cases hd : r.get? o.analysis.document with
      | none => simp
      | some d => simpa using hwhy d hd

/-- What a step does to the cache. -/
inductive Caching (r : Run) (now : Duration) (e : Event) : Prop
  | kept (hnone : r.filing? e = none)
      (hcache : (r.next now e).watch.store.cache = r.watch.store.cache)
      (hconfig : (r.next now e).watch.store.config = r.watch.store.config)
  | filed (f : Filing) (hf : r.filing? e = some f)
      (hfiles : Files now r.watch.store f (r.next now e).watch.store)
  /-- The settings mean something else, and nothing is left. -/
  | wiped (hnone : r.filing? e = none) (hcache : (r.next now e).watch.store.cache = [])
      (hconfig : (r.next now e).watch.store.config ≠ r.watch.store.config)
  /-- A document is closed, and what was cached for it goes. -/
  | dropped (id : DocumentId) (hnone : r.filing? e = none)
      (hcache : (r.next now e).watch.store.cache =
        r.watch.store.cache.filter (·.key.document ≠ id))
      (hconfig : (r.next now e).watch.store.config = r.watch.store.config)
      (hgone : (r.next now e).watch.store.text? id = none)

theorem caching_of_setConfig {config : Fingerprint} (hnone : r.filing? e = none)
    (hstore : (r.next now e).watch.store = (r.watch.store.setConfig config).2) :
    Caching r now e := by
  by_cases hsame : r.watch.store.config = config
  · have hstay : (r.next now e).watch.store = r.watch.store := by
      rw [hstore]
      unfold DocumentStore.setConfig
      rw [if_pos hsame]
    exact .kept hnone (by rw [hstay]) (by rw [hstay])
  · refine .wiped hnone ?_ ?_
    · rw [hstore]
      unfold DocumentStore.setConfig
      rw [if_neg hsame]
    · rw [hstore, DocumentStore.setConfig_config]
      exact Ne.symm hsame

/-- A step brings its filing into the cache, or the cache stays, or it loses all or what
belongs to one document. -/
theorem caching (r : Run) (now : Duration) (e : Event) : Caching r now e := by
  cases r.stride now e with
  | still hstore _ _ _ hevent =>
    exact .kept (filing?_of_none hevent) (by rw [hstore]) (by rw [hstore])
  | edited _ _ _ hstore _ _ _ _ hevent =>
    exact .kept (filing?_of_none hevent) (by rw [hstore, DocumentStore.upsert_cache])
      (by rw [hstore, DocumentStore.upsert_config])
  | replayed _ _ _ _ hreads _ _ _ hstore _ _ _ hevent =>
    refine .kept (filing?_of_none hevent) ?_ ?_
    · rw [hstore, DocumentStore.recordResult_cache, cache_of_reads hreads]
    · rw [hstore, DocumentStore.recordResult_config, config_of_reads hreads]
  | begun _ _ _ _ _ _ hstore _ _ _ hevent =>
    exact .kept (filing?_of_none hevent) (by rw [hstore]; rfl) (by rw [hstore]; rfl)
  | fellBack _ _ _ _ _ _ _ hstore _ _ _ hevent =>
    refine .kept (filing?_of_none hevent) ?_ ?_
    · rw [hstore, DocumentStore.recordResult_cache]
      rfl
    · rw [hstore, DocumentStore.recordResult_config]
      rfl
  | turned hstore _ _ _ hevent =>
    exact .kept (filing?_of_none hevent) (by rw [hstore]) (by rw [hstore])
  | answered o outcome d findings hfound houtcome hopen htext hstore _ _ _ hevent _ =>
    have hconcluded := hevent ▸ concluded?_completion hfound houtcome
    rcases hstore with ⟨raw, rfl, rfl, hstore⟩ | ⟨hnot, hstore⟩
    · obtain ⟨f, hf, hfiles⟩ :=
        files_of_ok (List.mem_of_find?_eq_some hfound) hconcluded hopen htext hstore
      exact .filed f hf hfiles
    · refine .kept (filing?_of_not_ok hconcluded hnot) ?_ ?_
      · rw [hstore, DocumentStore.recordResult_cache]
      · rw [hstore, DocumentStore.recordResult_config]
  | lapsed o outcome hfound houtcome hwhy hstore _ _ _ hevent _ =>
    refine .kept (filing?_of_lapsed (List.mem_of_find?_eq_some hfound)
      (hevent ▸ concluded?_completion hfound houtcome) hwhy) ?_ ?_
    · rw [hstore, DocumentStore.finishAnalysis_cache]
    · rw [hstore, DocumentStore.finishAnalysis_config]
  | closed id hstore _ _ _ hevent =>
    refine .dropped id (filing?_of_none (hevent ▸ rfl)) ?_ ?_ ?_
    · rw [hstore]
      rfl
    · rw [hstore]
      rfl
    · rw [hstore]
      exact DocumentStore.text?_remove_self
  | reconfigured config hstore _ _ _ _ hevent =>
    exact caching_of_setConfig (filing?_of_none (concluded?_of_isReconfigured hevent)) hstore
  | configSet config hstore _ _ _ hevent =>
    exact caching_of_setConfig (filing?_of_none (hevent ▸ rfl)) hstore
  | shutDown hstore _ _ hevent =>
    exact .kept (filing?_of_none (hevent ▸ rfl)) (by rw [hstore]) (by rw [hstore])

/-- A step brings its filing into the cache, and nothing else. -/
theorem cache_next (r : Run) (now : Duration) (e : Event) :
    (r.filing? e = none ∧ ∀ c ∈ (r.next now e).watch.store.cache, c ∈ r.watch.store.cache) ∨
      ∃ f, r.filing? e = some f ∧ Files now r.watch.store f (r.next now e).watch.store := by
  cases caching r now e with
  | kept hnone hcache _ => exact .inl ⟨hnone, fun c hc => hcache ▸ hc⟩
  | filed f hf hfiles => exact .inr ⟨f, hf, hfiles⟩
  | wiped hnone hcache _ =>
    refine .inl ⟨hnone, fun c hc => ?_⟩
    rw [hcache] at hc
    exact absurd hc List.not_mem_nil
  | dropped id hnone hcache _ _ =>
    refine .inl ⟨hnone, fun c hc => ?_⟩
    rw [hcache] at hc
    exact (List.mem_filter.mp hc).1

/-! ## Sources -/

/-- Every cached result is the last one that was filed under its key. -/
theorem Run.sourced (r : Run) :
    ∀ c ∈ r.watch.store.cache, ∃ f, r.filingOf? c.key = some f ∧ f.findings = c.findings := by
  induction r with
  | start options config now => exact fun c hc => absurd hc List.not_mem_nil
  | next r now e ih =>
    intro c hc
    show ∃ f, List.find? _ ((r.filing? e).toList ++ r.filed) = some f ∧ _
    rcases cache_next r now e with ⟨hnone, hsub⟩ | ⟨f, hf, hfiles⟩
    · rw [hnone]
      exact ih c (hsub c hc)
    · rw [hf, Option.toList_some, List.singleton_append]
      rw [hfiles.cache] at hc
      rcases List.mem_append.mp (List.mem_filter.mp hc).1 with hold | hnew
      · obtain ⟨hmem, hne⟩ := List.mem_filter.mp hold
        rw [List.find?_cons_of_neg (by simpa using Ne.symm (by simpa using hne))]
        exact ih c hmem
      · rw [List.mem_singleton.mp hnew]
        exact ⟨f, List.find?_cons_of_pos (by simp), rfl⟩

theorem getCached?_eq_some {s : DocumentStore} {findings : List Finding}
    (h : s.getCached? now id = some findings) :
    ∃ d c, s.get? id = some d ∧ c ∈ s.cache ∧ c.key = ⟨id, d.fingerprint, s.config⟩ ∧
      c.findings = findings := by
  unfold DocumentStore.getCached? at h
  obtain ⟨d, hd, h⟩ := Option.bind_eq_some_iff.mp h
  obtain ⟨c, hc, h⟩ := Option.bind_eq_some_iff.mp h
  refine ⟨d, c, hd, List.mem_of_find?_eq_some hc, by simpa using List.find?_some hc, ?_⟩
  split at h
  · cases h
  · exact Option.some.inj h

/-- What was filed just now is found. -/
theorem Files.getCached? {s s' : DocumentStore} {f : Filing} (h : Files now s f s') :
    s'.getCached? now f.key.document = some f.findings := by
  obtain ⟨d, hd, hfp⟩ := h.entry
  have hfresh : ∀ t : DocumentStore, t.isExpired now ⟨f.key, f.findings, now⟩ = false := by
    intro t
    unfold DocumentStore.isExpired
    simp
  have hfound : s'.cache.find? (·.key = f.key) = some ⟨f.key, f.findings, now⟩ := by
    rw [h.cache, List.filter_append, List.find?_append]
    have hnone : ((s.cache.filter (·.key ≠ f.key)).filter (!s.isExpired now ·)).find?
        (·.key = f.key) = none := by
      rw [List.find?_eq_none]
      intro c hc
      have := (List.mem_filter.mp (List.mem_filter.mp hc).1).2
      simpa using this
    rw [hnone]
    simp [hfresh]
  unfold DocumentStore.getCached?
  rw [hd]
  simp only [Option.bind_eq_bind, Option.bind_some, hfp, h.config]
  rw [show (⟨f.key.document, f.key.content, f.key.config⟩ : CacheKey) = f.key from rfl, hfound]
  simp [hfresh]

/-- While no result was cached under other settings than those of its analysis, what is
found is current. -/
theorem cachedIsCurrent_of_filed (h : ∀ f ∈ r.filed, f.begunUnder = f.key.config) :
    r.CachedIsCurrent := by
  intro now id findings hfound
  obtain ⟨d, c, hd, hc, hkey, hfindings⟩ := getCached?_eq_some hfound
  obtain ⟨f, hf, hsame⟩ := r.sourced c hc
  rw [hkey] at hf
  have hfkey : f.key = ⟨id, d.fingerprint, r.watch.store.config⟩ := by
    simpa using List.find?_some hf
  refine ⟨d, f, hd, hf, hsame.trans hfindings, ?_⟩
  rw [h f (List.mem_of_find?_eq_some hf), hfkey]

/-- What the cache has belongs to the settings as they are, throughout a run, exactly if
every result was cached under the settings under which its analysis was begun. -/
theorem always_cachedIsCurrent_iff (r : Run) :
    r.Always Run.CachedIsCurrent ↔ ∀ f ∈ r.filed, f.begunUnder = f.key.config := by
  induction r with
  | start options config now =>
    have hnone : ∀ f ∈ (Run.start options config now).filed, f.begunUnder = f.key.config :=
      fun f hf => absurd hf List.not_mem_nil
    exact ⟨fun _ => hnone, fun _ => cachedIsCurrent_of_filed hnone⟩
  | next r now e ih =>
    constructor
    · rintro ⟨hpast, hlast⟩ f' hf'
      have hfiled := ih.mp hpast
      change f' ∈ (r.filing? e).toList ++ r.filed at hf'
      rcases cache_next r now e with ⟨hnone, -⟩ | ⟨f, hf, hfiles⟩
      · rw [hnone] at hf'
        exact hfiled f' hf'
      · rw [hf, Option.toList_some, List.singleton_append] at hf'
        rcases List.mem_cons.mp hf' with rfl | hold
        · -- what was cached just now is found, and it is its own last filing
          obtain ⟨d, f, hd, hfound, -, hcurrent⟩ := hlast now _ _ hfiles.getCached?
          obtain ⟨d', hd', hfp⟩ := hfiles.entry
          have hdd : d = d' := Option.some.inj (hd.symm.trans hd')
          have hself : (r.next now e).filingOf? f'.key = some f' := by
            show List.find? _ ((r.filing? e).toList ++ r.filed) = some f'
            rw [hf]
            exact List.find?_cons_of_pos (by simp)
          have hkey : (⟨f'.key.document, d.fingerprint, (r.next now e).watch.store.config⟩ :
              CacheKey) = f'.key := by
            rw [hdd, hfp, hfiles.config]
          rw [hkey, hself] at hfound
          cases hfound
          exact hcurrent.trans hfiles.config
        · exact hfiled f' hold
    · intro h
      have hsub : ∀ f ∈ r.filed, f ∈ (r.next now e).filed :=
        fun f hf => List.mem_append_right _ hf
      exact ⟨ih.mpr fun f hf => h f (hsub f hf), cachedIsCurrent_of_filed h⟩

/-- The settings change while the service is asked, and then it answers. -/
def Run.answeredLater : Run :=
  let answered := Duration.ofMillis 800
  asking.after
    [(Duration.ofMillis 600, otherSettings),
      (answered, .answered 0 (.returned (.ok [.basic "F1" "F1" .warning "F1"]))),
      (answered, .ran .worker), (answered, .ran (.completion 0))]

/-- What was found under the old settings is cached under the new ones. -/
theorem not_cachedIsCurrent_answeredLater : ¬ Run.answeredLater.CachedIsCurrent := by
  intro h
  obtain ⟨hcached, hfiled, hconfig⟩ :
      (Run.answeredLater.watch.store.getCached? (Duration.ofMillis 900) ⟨"a.go"⟩).isSome =
        true ∧
      (∀ f ∈ Run.answeredLater.filed, f.begunUnder = ⟨"e76f3a43e0a9ab77"⟩) ∧
      Run.answeredLater.watch.store.config = ⟨"2741ca62dc7b8344"⟩ := by
    decide +kernel
  obtain ⟨findings, hfound⟩ := Option.isSome_iff_exists.mp hcached
  obtain ⟨d, f, -, hf, -, hcurrent⟩ := h _ _ _ hfound
  rw [hfiled f (List.mem_of_find?_eq_some hf), hconfig] at hcurrent
  exact absurd hcurrent (by decide)

end Watch

end SmellWatch
