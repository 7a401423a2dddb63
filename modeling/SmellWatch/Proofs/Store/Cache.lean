import SmellWatch.Proofs.Store.Run
/-! What a look-up in the cache gives, told by the history of the store.

The cache has the result that was taken in last for a document and a text, unless the settings
were changed or the document was removed since.  A result that has expired is not given, and
it is forgotten as soon as another result is taken in.  `Run.keeping` is the store that never
forgets for this reason; it has the same look-ups, so the history is told there. -/

namespace SmellWatch

namespace DocumentStore

variable {s : DocumentStore} {id : DocumentId} {fp : Fingerprint} {f : List Finding}
variable {now time : Duration} {op : Operation} {c : CacheEntry}

/-! ## A store that keeps what has expired -/

/-- The store without the results that have expired at a time. -/
def pruned (time : Duration) (s : DocumentStore) : DocumentStore :=
  { s with cache := s.cache.filter (!s.isExpired time ·) }

@[simp] theorem get?_pruned (s : DocumentStore) (time : Duration) (id : DocumentId) :
    (s.pruned time).get? id = s.get? id := rfl

@[simp] theorem config_pruned (s : DocumentStore) (time : Duration) :
    (s.pruned time).config = s.config := rfl

/-- Takes in a result and caches it; what has expired is kept. -/
def setResultKeeping (now : Duration) (s : DocumentStore) (id : DocumentId) (fp : Fingerprint)
    (findings : List Finding) : DocumentStore :=
  match s.recordResult now id fp findings with
  | (false, s) => s
  | (true, s) =>
    let key : CacheKey := ⟨id, fp, s.config⟩
    { s with cache := s.cache.filter (·.key ≠ key) ++ [⟨key, findings, now⟩] }

/-- The store after an operation that keeps what has expired. -/
def performKeeping (now : Duration) (s : DocumentStore) : Operation → DocumentStore
  | .setResult id fp findings => s.setResultKeeping now id fp findings
  | op => s.perform now op

/-- What has not expired later has not expired before. -/
theorem filter_fresh (s : DocumentStore) (hle : time ≤ now) (l : List CacheEntry) :
    (l.filter (!s.isExpired time ·)).filter (!s.isExpired now ·) =
      l.filter (!s.isExpired now ·) := by
  rw [List.filter_filter]
  apply List.filter_congr
  intro c _
  cases hold : s.isExpired time c with
  | false => simp
  | true => simp [isExpired_mono hold hle]

theorem upsert_pruned (s : DocumentStore) (time : Duration) (id : DocumentId) (content : String) :
    ((s.pruned time).upsert id content).2 = (s.upsert id content).2.pruned time := by
  unfold upsert
  rw [get?_pruned]
  cases s.get? id with
  | none => rfl
  | some e =>
    dsimp only
    split <;> rfl

theorem recordResult_pruned (now : Duration) (s : DocumentStore) (time : Duration)
    (id : DocumentId) (fp : Fingerprint) (f : List Finding) :
    (s.pruned time).recordResult now id fp f =
      ((s.recordResult now id fp f).1, (s.recordResult now id fp f).2.pruned time) := by
  unfold recordResult
  rw [get?_pruned]
  cases s.get? id with
  | none => rfl
  | some e =>
    dsimp only
    split <;> rfl

theorem beginAnalysis_pruned (s : DocumentStore) (time : Duration) (id : DocumentId) :
    ((s.pruned time).beginAnalysis id).2 = (s.beginAnalysis id).2.pruned time := by
  unfold beginAnalysis
  rw [get?_pruned]
  cases s.get? id with
  | none => rfl
  | some e =>
    dsimp only
    split <;> rfl

theorem finishAnalysis_pruned (s : DocumentStore) (time : Duration) (id : DocumentId) (seq : Nat) :
    ((s.pruned time).finishAnalysis id seq).2 = (s.finishAnalysis id seq).2.pruned time := by
  unfold finishAnalysis
  rw [get?_pruned]
  split <;> rfl

theorem setConfig_pruned (s : DocumentStore) (time : Duration) (config : Fingerprint) :
    ((s.pruned time).setConfig config).2 = (s.setConfig config).2.pruned time := by
  unfold setConfig
  rw [config_pruned]
  split <;> rfl

theorem remove_pruned (s : DocumentStore) (time : Duration) (id : DocumentId) :
    ((s.pruned time).remove id).2 = (s.remove id).2.pruned time := by
  unfold remove pruned isExpired
  simp only [List.filter_filter, Bool.and_comm]

/-- When a result is taken in, what was forgotten before is forgotten anew. -/
theorem setResult_pruned (s : DocumentStore) (hle : time ≤ now) (id : DocumentId)
    (fp : Fingerprint) (f : List Finding) :
    ∃ time' ≤ now,
      ((s.pruned time).setResult now id fp f).2 = (s.setResultKeeping now id fp f).pruned time' := by
  unfold setResult setResultKeeping
  rw [recordResult_pruned]
  rcases s.recordResult now id fp f with ⟨_ | _, s'⟩
  · exact ⟨time, hle, rfl⟩
  · refine ⟨now, Nat.le_refl _, ?_⟩
    let key : CacheKey := ⟨id, fp, s'.config⟩
    have hcache :
        ((s'.cache.filter (!s'.isExpired time ·)).filter (·.key ≠ key)).filter
            (!s'.isExpired now ·) =
          (s'.cache.filter (·.key ≠ key)).filter (!s'.isExpired now ·) := by
      rw [List.filter_comm fun c : CacheEntry => c.key ≠ key, s'.filter_fresh hle]
    show ({ s' with cache := List.filter (!s'.isExpired now ·) _ } : DocumentStore) =
      { s' with cache := List.filter (!s'.isExpired now ·) _ }
    rw [List.filter_append, List.filter_append, ← hcache]
    rfl

/-- Keeping what has expired or not makes no other difference. -/
theorem perform_pruned (s : DocumentStore) (hle : time ≤ now) (op : Operation) :
    ∃ time' ≤ now, (s.pruned time).perform now op = (s.performKeeping now op).pruned time' := by
  cases op with
  | upsert d content => exact ⟨time, hle, s.upsert_pruned time d content⟩
  | setResult d fp f => exact s.setResult_pruned hle d fp f
  | recordResult d fp f => exact ⟨time, hle, congrArg (·.2) (s.recordResult_pruned now time d fp f)⟩
  | setInFlight d b => exact ⟨time, hle, rfl⟩
  | beginAnalysis d => exact ⟨time, hle, s.beginAnalysis_pruned time d⟩
  | finishAnalysis d seq => exact ⟨time, hle, s.finishAnalysis_pruned time d seq⟩
  | setConfig config => exact ⟨time, hle, s.setConfig_pruned time config⟩
  | remove d => exact ⟨time, hle, s.remove_pruned time d⟩

/-! ## What an operation does to what is cached -/

/-- A result is taken in for a document and a text. -/
def Accepts (now : Duration) (s : DocumentStore) (op : Operation) (id : DocumentId)
    (fp : Fingerprint) (f : List Finding) : Prop :=
  op = .setResult id fp f ∧ (s.setResult now id fp f).1 = true

/-- What was cached for a document and a text is no longer given: the settings are changed, the
document is removed, or another result is taken in. -/
def Overrides (now : Duration) (s : DocumentStore) (op : Operation) (id : DocumentId)
    (fp : Fingerprint) : Prop :=
  (∃ config, op = .setConfig config ∧ s.config ≠ config) ∨ op = .remove id ∨
    ∃ f, s.Accepts now op id fp f

theorem accepts_pruned : (s.pruned time).Accepts now op id fp f ↔ s.Accepts now op id fp f := by
  unfold Accepts
  rw [setResult_fst, setResult_fst, recordResult_pruned]

theorem overrides_pruned : (s.pruned time).Overrides now op id fp ↔ s.Overrides now op id fp := by
  unfold Overrides
  simp only [accepts_pruned]
  rfl

theorem setResultKeeping_of_not (h : (s.setResult now id fp f).1 = false) :
    s.setResultKeeping now id fp f = s := by
  rw [setResult_fst] at h
  have hs := recordResult_of_not h
  unfold setResultKeeping
  split <;> rename_i hr <;> rw [hr] at h hs
  · exact hs
  · cases h

theorem setResultKeeping_cache (h : (s.setResult now id fp f).1 = true) :
    (s.setResultKeeping now id fp f).cache =
      s.cache.filter (·.key ≠ ⟨id, fp, s.config⟩) ++ [⟨⟨id, fp, s.config⟩, f, now⟩] := by
  rw [setResult_fst] at h
  have hcache := recordResult_cache now s id fp f
  have hconfig := recordResult_config now s id fp f
  unfold setResultKeeping
  split <;> rename_i hr <;> rw [hr] at h hcache hconfig
  · cases h
  · dsimp only at hcache hconfig
    simp only [hcache, hconfig]

theorem perform_config (h : ¬ ∃ config, op = .setConfig config ∧ s.config ≠ config) :
    (s.perform now op).config = s.config := by
  cases op with
  | setConfig config =>
    have hsame : s.config = config := by
      by_contra hne
      exact h ⟨config, rfl, hne⟩
    simp [perform, hsame]
  | _ => simp [perform, setInFlight_snd, modify, remove]

theorem Accepts.config (h : s.Accepts now op id fp f) : (s.perform now op).config = s.config := by
  apply perform_config
  rintro ⟨config, heq, -⟩
  cases h.1.symm.trans heq

/-- What is cached after a result was taken in is that result or is about something else. -/
theorem mem_setResultKeeping (h : (s.setResult now id fp f).1 = true) :
    c ∈ (s.setResultKeeping now id fp f).cache ↔
      c = ⟨⟨id, fp, s.config⟩, f, now⟩ ∨ (c.key ≠ ⟨id, fp, s.config⟩ ∧ c ∈ s.cache) := by
  rw [setResultKeeping_cache h, List.mem_append, List.mem_filter, List.mem_singleton,
    decide_eq_true_eq, or_comm, and_comm]

theorem accepts_setResult (h : (s.setResult now id fp f).1 = true) {d : DocumentId}
    {t : Fingerprint} {g : List Finding} :
    s.Accepts now (.setResult id fp f) d t g ↔ (d = id ∧ t = fp) ∧ g = f := by
  unfold Accepts
  constructor
  · rintro ⟨heq, -⟩
    cases heq
    exact ⟨⟨rfl, rfl⟩, rfl⟩
  · rintro ⟨⟨rfl, rfl⟩, rfl⟩
    exact ⟨rfl, h⟩

theorem not_accepts_setResult (h : ¬ (s.setResult now id fp f).1 = true) {d : DocumentId}
    {t : Fingerprint} {g : List Finding} : ¬ s.Accepts now (.setResult id fp f) d t g := by
  rintro ⟨heq, htaken⟩
  cases heq
  exact h htaken

/-- What is cached after an operation was taken in by it, or was cached before and stays. -/
theorem mem_performKeeping (hconfig : ∀ c ∈ s.cache, c.key.config = s.config) :
    c ∈ (s.performKeeping now op).cache ↔
      (s.Accepts now op c.key.document c.key.content c.findings ∧ c.key.config = s.config ∧
        c.storedAt = now) ∨
      (¬ s.Overrides now op c.key.document c.key.content ∧ c ∈ s.cache) := by
  cases op with
  | setResult d fp f =>
    show c ∈ (s.setResultKeeping now d fp f).cache ↔ _
    by_cases htaken : (s.setResult now d fp f).1 = true
    · rw [mem_setResultKeeping htaken]
      simp only [Overrides, accepts_setResult htaken]
      -- all that is cached has the settings of now, so a key is told by document and text
      have hsame := hconfig c
      rcases c with ⟨⟨d', fp', config⟩, f', time⟩
      simp only [CacheEntry.mk.injEq, CacheKey.mk.injEq] at *
      grind
    · rw [setResultKeeping_of_not (by simpa using htaken)]
      simp [Overrides, not_accepts_setResult htaken]
  | setConfig config =>
    by_cases hsame : s.config = config
    · simp [performKeeping, perform, setConfig, Accepts, Overrides, hsame]
    · simp [performKeeping, perform, setConfig, Accepts, Overrides, hsame]
  | remove d =>
    show c ∈ s.cache.filter (·.key.document ≠ d) ↔ _
    rw [List.mem_filter, and_comm]
    simp [Accepts, Overrides, eq_comm (a := d)]
  | _ => simp [performKeeping, perform, setInFlight_snd, modify, Accepts, Overrides]

/-! ## What a look-up gives -/

/-- If no two cached results are about the same, a look-up gives what is cached and has not
expired. -/
theorem getCached?_eq_some_iff (hkeys : ∀ c ∈ s.cache, ∀ d ∈ s.cache, c.key = d.key → c = d) :
    s.getCached? now id = some f ↔
      ∃ e, s.get? id = some e ∧ ∃ c ∈ s.cache, c.key = ⟨id, e.fingerprint, s.config⟩ ∧
        c.findings = f ∧ s.isExpired now c = false := by
  unfold getCached?
  cases hget : s.get? id with
  | none => simp
  | some e =>
    simp only [Option.bind_eq_bind, Option.bind_some, Option.some.injEq, exists_eq_left']
    cases hfound : s.cache.find? (·.key = ⟨id, e.fingerprint, s.config⟩) with
    | none =>
      rw [List.find?_eq_none] at hfound
      simp only [Option.bind_none, reduceCtorEq, false_iff]
      rintro ⟨c, hc, hkey, -⟩
      exact hfound c hc (decide_eq_true hkey)
    | some c =>
      have hc := List.mem_of_find?_eq_some hfound
      have hkey : c.key = ⟨id, e.fingerprint, s.config⟩ := by simpa using List.find?_some hfound
      simp only [Option.bind_some]
      constructor
      · intro hgiven
        split at hgiven
        · cases hgiven
        · next hfresh =>
          exact ⟨c, hc, hkey, Option.some.inj hgiven, by simpa using hfresh⟩
      · rintro ⟨d, hd, hdkey, rfl, hfresh⟩
        rw [hkeys c hc d hd (hkey.trans hdkey.symm), hfresh]
        rfl

/-- No look-up tells whether what expired before was forgotten. -/
theorem getCached?_pruned (hkeys : ∀ c ∈ s.cache, ∀ d ∈ s.cache, c.key = d.key → c = d)
    (hle : time ≤ now) (id : DocumentId) :
    (s.pruned time).getCached? now id = s.getCached? now id := by
  apply Option.ext
  intro f
  have hmem : ∀ {c}, c ∈ (s.pruned time).cache ↔ c ∈ s.cache ∧ s.isExpired time c = false := by
    intro c
    simp [pruned, List.mem_filter]
  have hkeys' : ∀ c ∈ (s.pruned time).cache, ∀ d ∈ (s.pruned time).cache, c.key = d.key → c = d :=
    fun c hc d hd => hkeys c (hmem.mp hc).1 d (hmem.mp hd).1
  rw [getCached?_eq_some_iff hkeys', getCached?_eq_some_iff hkeys]
  constructor
  · rintro ⟨e, hget, c, hc, hkey, hfindings, hfresh⟩
    exact ⟨e, hget, c, (hmem.mp hc).1, hkey, hfindings, hfresh⟩
  · rintro ⟨e, hget, c, hc, hkey, hfindings, hfresh⟩
    refine ⟨e, hget, c, hmem.mpr ⟨hc, ?_⟩, hkey, hfindings, hfresh⟩
    by_contra hold
    rw [isExpired_mono (by simpa using hold) hle] at hfresh
    cases hfresh

/-- A document stays open unless it is removed. -/
theorem isSome_get?_perform (hop : op ≠ .remove id) (hopen : (s.get? id).isSome = true) :
    ((s.perform now op).get? id).isSome = true := by
  have hsome : ∀ t : DocumentStore, (t.get? id).isSome = (t.text? id).isSome := by
    intro t
    simp [text?]
  rw [hsome] at hopen ⊢
  cases op with
  | upsert d content =>
    by_cases hd : id = d
    · subst hd
      by_cases hnews : s.IsNews id (Fingerprint.ofText content)
      · simp [perform, text?_upsert_self hnews]
      · rwa [perform, upsert_of_not_isNews hnews]
    · rwa [perform, text?_upsert_of_ne hd]
  | setResult d fp f => rwa [perform, text?_setResult]
  | recordResult d fp f => rwa [perform, text?_recordResult]
  | setInFlight d b =>
    have htext : (s.modify d ({ · with inFlight := b })).text? id = s.text? id :=
      text?_modify d id (fun _ => rfl) fun _ => rfl
    rwa [perform, setInFlight_snd, htext]
  | beginAnalysis d =>
    rcases s.beginAnalysis_cases d with h | h
    · rwa [perform, h]
    · rwa [perform, h, text?_engaged]
  | finishAnalysis d seq => rwa [perform, text?_finishAnalysis]
  | setConfig config => rwa [perform, text?_setConfig]
  | remove d =>
    have hd : id ≠ d := by
      rintro rfl
      exact hop rfl
    rwa [perform, text?_remove_of_ne hd]

namespace Run

/-! ## The last result that was taken in -/

variable {r : Run} {wait : Duration} {x y : Step} {g : List Finding}

def Step.Accepts (x : Step) (id : DocumentId) (fp : Fingerprint) (f : List Finding) : Prop :=
  x.past.store.Accepts x.time x.op id fp f

def Step.Overrides (x : Step) (id : DocumentId) (fp : Fingerprint) : Prop :=
  x.past.store.Overrides x.time x.op id fp

/-- A result was taken in for a document and a text, it was the last one, and since then the
settings were not changed and the document was not removed. -/
def Latest (r : Run) (id : DocumentId) (fp : Fingerprint) (f : List Finding) (x : Step) : Prop :=
  x.Accepts id fp f ∧
    ∃ after before, r.steps = after ++ x :: before ∧ ∀ y ∈ after, ¬ y.Overrides id fp

theorem latest_next :
    (r.next wait op).Latest id fp f x ↔
      (x = ⟨r, r.now + wait, op⟩ ∧ r.store.Accepts (r.now + wait) op id fp f) ∨
      (¬ r.store.Overrides (r.now + wait) op id fp ∧ r.Latest id fp f x) := by
  unfold Latest
  constructor
  · rintro ⟨haccepts, after, before, hsteps, hafter⟩
    cases after with
    | nil =>
      obtain ⟨rfl, -⟩ := List.cons.inj hsteps
      exact .inl ⟨rfl, haccepts⟩
    | cons y after =>
      obtain ⟨rfl, hpast⟩ := List.cons.inj hsteps
      refine .inr ⟨hafter _ List.mem_cons_self, haccepts, after, before, hpast, ?_⟩
      intro y hy
      exact hafter y (List.mem_cons_of_mem _ hy)
  · rintro (⟨rfl, haccepts⟩ | ⟨hkept, haccepts, after, before, hsteps, hafter⟩)
    · exact ⟨haccepts, [], r.steps, rfl, fun y hy => nomatch hy⟩
    · refine ⟨haccepts, ⟨r, r.now + wait, op⟩ :: after, before, ?_, ?_⟩
      · rw [steps, hsteps]
        rfl
      · intro y hy
        rcases List.mem_cons.mp hy with rfl | hy
        · exact hkept
        · exact hafter y hy

theorem not_latest_start {config : Fingerprint} {age : Duration} :
    ¬ (start config age).Latest id fp f x := by
  rintro ⟨-, after, before, hsteps, -⟩
  cases after <;> cases hsteps

/-- There is one last result at most. -/
theorem Latest.unique (hx : r.Latest id fp f x) (hy : r.Latest id fp g y) : f = g ∧ x = y := by
  induction r with
  | start config age => exact absurd hx not_latest_start
  | next r wait op ih =>
    rcases latest_next.mp hx with ⟨rfl, hf⟩ | ⟨hkept, hx⟩ <;>
      rcases latest_next.mp hy with ⟨rfl, hg⟩ | ⟨hkept', hy⟩
    · cases hf.1.symm.trans hg.1
      exact ⟨rfl, rfl⟩
    · exact absurd (.inr (.inr ⟨f, hf⟩)) hkept'
    · exact absurd (.inr (.inr ⟨g, hg⟩)) hkept
    · exact ih hx hy

theorem Latest.isOpen (h : r.Latest id fp f x) : (r.get? id).isSome = true := by
  induction r with
  | start config age => exact absurd h not_latest_start
  | next r wait op ih =>
    rcases latest_next.mp h with ⟨-, rfl, htaken⟩ | ⟨hkept, h⟩
    · apply isSome_get?_perform (by simp)
      rw [setResult_fst, recordResult_fst] at htaken
      cases hget : r.store.get? id with
      | none => simp [hget] at htaken
      | some e => rfl
    · apply isSome_get?_perform
      · rintro rfl
        exact hkept (.inr (.inl rfl))
      · exact ih h

/-! ## The store that keeps what has expired -/

/-- The store at the end of a run if it keeps what has expired. -/
def keeping : Run → DocumentStore
  | start config maxCacheAge => { config, maxCacheAge }
  | next r wait op => r.keeping.performKeeping (r.now + wait) op

theorem store_eq_pruned (r : Run) : ∃ time ≤ r.now, r.store = r.keeping.pruned time := by
  induction r with
  | start config age => exact ⟨0, Nat.le_refl _, rfl⟩
  | next r wait op ih =>
    obtain ⟨time, hle, hstore⟩ := ih
    unfold store
    rw [hstore]
    exact perform_pruned _ (Nat.le_trans hle (Nat.le_add_right _ _)) op

@[simp] theorem keeping_get? (r : Run) (id : DocumentId) : r.keeping.get? id = r.get? id := by
  obtain ⟨time, -, hstore⟩ := r.store_eq_pruned
  unfold Run.get?
  rw [hstore]
  rfl

@[simp] theorem keeping_config (r : Run) : r.keeping.config = r.store.config := by
  obtain ⟨time, -, hstore⟩ := r.store_eq_pruned
  rw [hstore]
  rfl

@[simp] theorem keeping_maxCacheAge (r : Run) : r.keeping.maxCacheAge = r.store.maxCacheAge := by
  obtain ⟨time, -, hstore⟩ := r.store_eq_pruned
  rw [hstore]
  rfl

theorem keeping_accepts :
    r.keeping.Accepts now op id fp f ↔ r.store.Accepts now op id fp f := by
  obtain ⟨time, -, hstore⟩ := r.store_eq_pruned
  rw [hstore, accepts_pruned]

theorem keeping_overrides : r.keeping.Overrides now op id fp ↔ r.store.Overrides now op id fp := by
  obtain ⟨time, -, hstore⟩ := r.store_eq_pruned
  rw [hstore, overrides_pruned]

/-- What is cached is the last result that was taken in for a document and a text. -/
theorem mem_keeping {c : CacheEntry} :
    c ∈ r.keeping.cache ↔
      c.key.config = r.store.config ∧
        ∃ x, r.Latest c.key.document c.key.content c.findings x ∧ c.storedAt = x.time := by
  induction r generalizing c with
  | start config age => simp [keeping, not_latest_start]
  | next r wait op ih =>
    have hconfig : ∀ c ∈ r.keeping.cache, c.key.config = r.keeping.config := by
      intro c hc
      rw [keeping_config]
      exact (ih.mp hc).1
    show c ∈ (r.keeping.performKeeping (r.now + wait) op).cache ↔
      c.key.config = (r.store.perform (r.now + wait) op).config ∧ _
    rw [mem_performKeeping hconfig, keeping_accepts, keeping_overrides, keeping_config, ih]
    constructor
    · rintro (⟨haccepts, hsame, htime⟩ | ⟨hkept, hsame, x, hx, htime⟩)
      · rw [haccepts.config]
        exact ⟨hsame, _, latest_next.mpr (.inl ⟨rfl, haccepts⟩), htime⟩
      · rw [perform_config fun h => hkept (.inl h)]
        exact ⟨hsame, x, latest_next.mpr (.inr ⟨hkept, hx⟩), htime⟩
    · rintro ⟨hsame, x, hx, htime⟩
      rcases latest_next.mp hx with ⟨rfl, haccepts⟩ | ⟨hkept, hx⟩
      · rw [haccepts.config] at hsame
        exact .inl ⟨haccepts, hsame, htime⟩
      · rw [perform_config fun h => hkept (.inl h)] at hsame
        exact .inr ⟨hkept, hsame, x, hx, htime⟩

theorem eq_of_key_keeping {c d : CacheEntry} (hc : c ∈ r.keeping.cache) (hd : d ∈ r.keeping.cache)
    (hkey : c.key = d.key) : c = d := by
  obtain ⟨-, x, hx, hctime⟩ := mem_keeping.mp hc
  obtain ⟨-, y, hy, hdtime⟩ := mem_keeping.mp hd
  rw [hkey] at hx
  obtain ⟨hfindings, rfl⟩ := hx.unique hy
  rcases c with ⟨ckey, cfindings, cstored⟩
  rcases d with ⟨dkey, dfindings, dstored⟩
  simp_all

/-- A look-up at the end of a run, or later, gives a result exactly if it was the last one
that was taken in for the document with its text, and it has not expired; all that is cached is
about open documents and the settings as they are; and no look-up tells whether what has
expired was forgotten. -/
theorem cached_as_history (r : Run) (id : DocumentId) (wait : Duration) (f : List Finding) :
    (r.store.getCached? (r.now + wait) id = some f ↔
      ∃ e, r.get? id = some e ∧ ∃ x, r.Latest id e.fingerprint f x ∧
        r.now + wait - x.time ≤ r.store.maxCacheAge) ∧
    (∀ c ∈ r.store.cache, (r.get? c.key.document).isSome = true ∧
      c.key.config = r.store.config) ∧
    r.store.getCached? (r.now + wait) id = r.keeping.getCached? (r.now + wait) id := by
  obtain ⟨time, hle, hstore⟩ := r.store_eq_pruned
  have hkeys : ∀ c ∈ r.keeping.cache, ∀ d ∈ r.keeping.cache, c.key = d.key → c = d :=
    fun c hc d hd => eq_of_key_keeping hc hd
  have hkeeping :
      r.store.getCached? (r.now + wait) id = r.keeping.getCached? (r.now + wait) id := by
    rw [hstore]
    exact getCached?_pruned hkeys (Nat.le_trans hle (Nat.le_add_right _ _)) id
  refine ⟨?_, ?_, hkeeping⟩
  · rw [hkeeping, getCached?_eq_some_iff hkeys]
    simp only [keeping_get?, keeping_config, mem_keeping]
    constructor
    · rintro ⟨e, hget, c, ⟨-, x, hx, htime⟩, hkey, rfl, hfresh⟩
      rw [hkey] at hx
      refine ⟨e, hget, x, hx, ?_⟩
      rw [← htime]
      simpa [isExpired] using hfresh
    · rintro ⟨e, hget, x, hx, hfresh⟩
      refine ⟨e, hget, ⟨⟨id, e.fingerprint, r.store.config⟩, f, x.time⟩, ⟨rfl, x, hx, rfl⟩, rfl,
        rfl, ?_⟩
      simpa [isExpired] using hfresh
  · intro c hc
    rw [hstore] at hc
    obtain ⟨hsame, x, hx, -⟩ := mem_keeping.mp (List.mem_filter.mp hc).1
    exact ⟨hx.isOpen, hsame⟩

end Run

end DocumentStore

end SmellWatch
