import Mathlib.Algebra.Ring.Nat
import Mathlib.Data.List.Nodup
import SmellWatch.Proofs.Store.Cache
/-! What is done to one document is not noticed by the others.

An operation on a document changes no other entry, but it may go through the whole cache: taking
in a result forgets what has expired, whatever it is about.  So two stores are compared by what a
document has in them that has not expired (`AgreeOn`).  Nothing else can be told by looking at the
document, now or later (`AgreeOn.getCached?_eq`): what has expired once stays so, and a look-up
passes it over by the same age.  An operation on another document keeps the agreement with the
store as it was (`agreeOn_perform`), and any operation on both stores keeps it
(`AgreeOn.perform`), so no continuation tells the two apart (`others_unaffected`). -/

namespace SmellWatch

namespace DocumentStore

variable {s t u : DocumentStore} {id other : DocumentId} {now time : Duration} {op : Operation}
  {c : CacheEntry}

/-- The document that an operation is on; other settings are on none. -/
def Operation.document? : Operation → Option DocumentId
  | .upsert id _ | .setResult id _ _ | .recordResult id _ _ | .setInFlight id _
  | .beginAnalysis id | .finishAnalysis id _ | .remove id => some id
  | .setConfig _ => none

/-- Whether an operation changes what is cached. -/
def Operation.changesCache : Operation → Bool
  | .setResult _ _ _ | .setConfig _ | .remove _ => true
  | _ => false

/-- A store after operations, each some time after the one before. -/
def performAll (now : Duration) (s : DocumentStore) : List (Duration × Operation) → DocumentStore
  | [] => s
  | (wait, op) :: l => performAll (now + wait) (s.perform (now + wait) op) l

/-- How long some operations take. -/
def lasting (l : List (Duration × Operation)) : Duration := (l.map (·.1)).sum

/-! ## No result twice -/

theorem perform_cache (h : op.changesCache = false) : (s.perform now op).cache = s.cache := by
  cases op with
  | setResult id fp f => cases h
  | setConfig config => cases h
  | remove id => cases h
  | _ => simp [DocumentStore.perform, setInFlight_snd, modify]

theorem Distinct.perform (h : s.Distinct) (now : Duration) (op : Operation) :
    (s.perform now op).Distinct := by
  have hkept : ∀ l : List CacheEntry, l.Sublist s.cache → (l.map (·.key)).Nodup :=
    fun l hl => List.Nodup.sublist (hl.map _) h
  unfold Distinct
  cases op with
  | setResult id fp f =>
    show ((s.setResult now id fp f).2.cache.map (·.key)).Nodup
    by_cases htaken : (s.setResult now id fp f).1 = true
    · rw [setResult_cache htaken]
      refine List.Nodup.sublist (List.filter_sublist.map _) ?_
      rw [List.map_append, List.nodup_append]
      refine ⟨hkept _ List.filter_sublist, List.nodup_singleton _, ?_⟩
      intro key hold key' hnew
      obtain ⟨c, hc, rfl⟩ := List.mem_map.mp hold
      rw [List.mem_singleton.mp hnew]
      simpa using (List.mem_filter.mp hc).2
    · rw [setResult_of_not (by simpa using htaken)]
      exact h
  | setConfig config =>
    show ((s.setConfig config).2.cache.map (·.key)).Nodup
    unfold setConfig
    split
    · exact h
    · exact List.nodup_nil
  | remove id => exact hkept _ List.filter_sublist
  | _ =>
    rw [perform_cache rfl]
    exact h

theorem Distinct.performAll (h : s.Distinct) (now : Duration) (l : List (Duration × Operation)) :
    (s.performAll now l).Distinct := by
  induction l generalizing now s with
  | nil => exact h
  | cons x l ih => exact ih (h.perform (now + x.1) x.2) (now + x.1)

/-- No run has a store that knows two results for one key. -/
theorem Run.distinct (r : Run) : r.store.Distinct := by
  induction r with
  | start config maxCacheAge => exact List.nodup_nil
  | next r wait op ih => exact ih.perform _ op

/-! ## Stores that know the same of a document -/

/-- Two stores have the same settings and the same entry for a document, and have the same cached
for it, as far as it has not expired. -/
structure AgreeOn (id : DocumentId) (now : Duration) (s t : DocumentStore) : Prop where
  entry : s.get? id = t.get? id
  config : s.config = t.config
  maxCacheAge : s.maxCacheAge = t.maxCacheAge
  cached : ∀ c, c.key.document = id → s.isExpired now c = false → (c ∈ s.cache ↔ c ∈ t.cache)

theorem isExpired_congr (h : s.maxCacheAge = t.maxCacheAge) (now : Duration) (c : CacheEntry) :
    s.isExpired now c = t.isExpired now c := by
  unfold isExpired
  rw [h]

namespace AgreeOn

theorem refl (id : DocumentId) (now : Duration) (s : DocumentStore) : AgreeOn id now s s :=
  ⟨rfl, rfl, rfl, fun _ _ _ => Iff.rfl⟩

theorem symm (h : AgreeOn id now s t) : AgreeOn id now t s where
  entry := h.entry.symm
  config := h.config.symm
  maxCacheAge := h.maxCacheAge.symm
  cached := by
    intro c hid hfresh
    rw [← isExpired_congr h.maxCacheAge] at hfresh
    exact (h.cached c hid hfresh).symm

theorem trans (h : AgreeOn id now s t) (h' : AgreeOn id now t u) : AgreeOn id now s u where
  entry := h.entry.trans h'.entry
  config := h.config.trans h'.config
  maxCacheAge := h.maxCacheAge.trans h'.maxCacheAge
  cached := by
    intro c hid hfresh
    refine (h.cached c hid hfresh).trans (h'.cached c hid ?_)
    rw [← isExpired_congr h.maxCacheAge]
    exact hfresh

/-- What has not expired later has not expired before. -/
theorem later (h : AgreeOn id time s t) (hle : time ≤ now) : AgreeOn id now s t where
  entry := h.entry
  config := h.config
  maxCacheAge := h.maxCacheAge
  cached := by
    intro c hid hfresh
    refine h.cached c hid ?_
    by_contra hold
    rw [isExpired_mono (by simpa using hold) hle] at hfresh
    cases hfresh

/-- A look-up tells no more than that. -/
theorem getCached?_eq (h : AgreeOn id now s t) (hs : s.Distinct) (ht : t.Distinct) :
    s.getCached? now id = t.getCached? now id := by
  apply Option.ext
  intro f
  rw [getCached?_eq_some_iff fun c hc d hd => hs.eq_of_key hc hd,
    getCached?_eq_some_iff fun c hc d hd => ht.eq_of_key hc hd, h.entry, h.config]
  constructor
  · rintro ⟨e, hget, c, hc, hkey, hf, hfresh⟩
    have hmem := (h.cached c (by rw [hkey]) hfresh).mp hc
    exact ⟨e, hget, c, hmem, hkey, hf, isExpired_congr h.maxCacheAge now c ▸ hfresh⟩
  · rintro ⟨e, hget, c, hc, hkey, hf, hfresh⟩
    have hmem := (h.symm.cached c (by rw [hkey]) hfresh).mp hc
    exact ⟨e, hget, c, hmem, hkey, hf, isExpired_congr h.symm.maxCacheAge now c ▸ hfresh⟩

end AgreeOn

/-! ## An operation on another document -/

theorem get?_perform_of_ne (hop : op.document? = some id) (hne : other ≠ id) :
    (s.perform now op).get? other = s.get? other := by
  cases op with
  | setConfig config => cases hop
  | upsert d content => cases hop; exact get?_upsert_of_ne hne
  | setResult d fp f =>
    cases hop
    exact (get?_setResult now s id other fp f).trans (get?_recordResult_of_ne hne)
  | recordResult d fp f => cases hop; exact get?_recordResult_of_ne hne
  | setInFlight d b => cases hop; exact get?_modify_of_ne _ (fun _ => rfl) hne
  | beginAnalysis d =>
    cases hop
    rcases s.beginAnalysis_cases id with h | h
    · rw [DocumentStore.perform, h]
    · rw [DocumentStore.perform, h, get?_engaged_of_ne hne]
  | finishAnalysis d seq => cases hop; exact get?_finishAnalysis_of_ne seq hne
  | remove d => cases hop; exact get?_remove_of_ne hne

theorem perform_maxCacheAge (now : Duration) (s : DocumentStore) (op : Operation) :
    (s.perform now op).maxCacheAge = s.maxCacheAge := by
  cases op with
  | beginAnalysis d =>
    rcases s.beginAnalysis_cases d with h | h
    · rw [DocumentStore.perform, h]
    · rw [DocumentStore.perform, h]
      rfl
  | _ => simp [DocumentStore.perform, setInFlight_snd, modify, remove]

/-- Of what is cached for other documents only what has expired is forgotten. -/
theorem mem_perform_cache_of_ne (hop : op.document? = some id) (hne : c.key.document ≠ id)
    (hfresh : s.isExpired now c = false) : c ∈ (s.perform now op).cache ↔ c ∈ s.cache := by
  cases op with
  | setConfig config => cases hop
  | setResult d fp f =>
    cases hop
    have hkey : c.key ≠ ⟨id, fp, s.config⟩ := fun h => hne (by rw [h])
    have hnew : c ≠ ⟨⟨id, fp, s.config⟩, f, now⟩ := fun h => hkey (by rw [h])
    show c ∈ (s.setResult now id fp f).2.cache ↔ _
    by_cases htaken : (s.setResult now id fp f).1 = true
    · rw [setResult_cache htaken, List.mem_filter, List.mem_append, List.mem_filter,
        List.mem_singleton]
      simp [hkey, hnew, hfresh]
    · rw [setResult_of_not (by simpa using htaken)]
  | remove d =>
    cases hop
    show c ∈ s.cache.filter (·.key.document ≠ id) ↔ _
    rw [List.mem_filter]
    simp [hne]
  | _ => rw [perform_cache rfl]

/-- An operation on another document leaves what there is to know of a document. -/
theorem agreeOn_perform (hop : op.document? = some id) (hne : other ≠ id) :
    AgreeOn other now (s.perform now op) s where
  entry := get?_perform_of_ne hop hne
  config := by
    apply perform_config
    rintro ⟨config, rfl, -⟩
    cases hop
  maxCacheAge := perform_maxCacheAge now s op
  cached := by
    intro c hid hfresh
    rw [isExpired_congr (perform_maxCacheAge now s op)] at hfresh
    exact mem_perform_cache_of_ne hop (hid ▸ hne) hfresh

/-! ## One operation on both stores -/

theorem get?_modify_congr (h : s.get? id = t.get? id) {f : DocumentEntry → DocumentEntry}
    (hf : ∀ e, (f e).id = e.id) : (s.modify id f).get? id = (t.modify id f).get? id := by
  rw [get?_modify_self f hf, get?_modify_self f hf, h]

theorem get?_recordResult_congr (h : s.get? id = t.get? id) (now : Duration) (fp : Fingerprint)
    (f : List Finding) :
    (s.recordResult now id fp f).2.get? id = (t.recordResult now id fp f).2.get? id := by
  unfold DocumentStore.recordResult
  rw [h]
  cases t.get? id with
  | none => exact h
  | some e =>
    dsimp only
    split
    · exact get?_modify_congr h fun _ => rfl
    · exact h

theorem get?_upsert_congr (h : s.get? id = t.get? id) (content : String) :
    (s.upsert id content).2.get? id = (t.upsert id content).2.get? id := by
  have hsame : s.IsNews id (Fingerprint.ofText content) ↔
      t.IsNews id (Fingerprint.ofText content) := by
    unfold IsNews
    rw [h]
  by_cases hnews : t.IsNews id (Fingerprint.ofText content)
  · rw [get?_upsert_self hnews, get?_upsert_self (hsame.mpr hnews), h]
  · rw [upsert_of_not_isNews hnews, upsert_of_not_isNews (mt hsame.mp hnews)]
    exact h

theorem get?_beginAnalysis_congr (h : s.get? id = t.get? id) :
    (s.beginAnalysis id).2.get? id = (t.beginAnalysis id).2.get? id := by
  unfold DocumentStore.beginAnalysis
  rw [h]
  cases t.get? id with
  | none => exact h
  | some e =>
    dsimp only
    split
    · exact h
    · exact get?_modify_congr h fun _ => rfl

theorem get?_finishAnalysis_congr (h : s.get? id = t.get? id) (seq : Nat) :
    (s.finishAnalysis id seq).2.get? id = (t.finishAnalysis id seq).2.get? id := by
  unfold DocumentStore.finishAnalysis
  rw [h]
  split
  · exact get?_modify_congr h fun _ => rfl
  · exact h

/-- What an operation makes of an entry depends on the entry alone. -/
theorem get?_perform_congr (h : s.get? id = t.get? id) (now : Duration) (op : Operation) :
    (s.perform now op).get? id = (t.perform now op).get? id := by
  by_cases hon : op.document? = some id
  · cases op with
    | setConfig config => cases hon
    | upsert d content =>
      cases hon
      exact get?_upsert_congr h content
    | setResult d fp f =>
      cases hon
      show (s.setResult now id fp f).2.get? id = (t.setResult now id fp f).2.get? id
      rw [get?_setResult, get?_setResult]
      exact get?_recordResult_congr h now fp f
    | recordResult d fp f =>
      cases hon
      exact get?_recordResult_congr h now fp f
    | setInFlight d b =>
      cases hon
      exact get?_modify_congr h fun _ => rfl
    | beginAnalysis d =>
      cases hon
      exact get?_beginAnalysis_congr h
    | finishAnalysis d seq =>
      cases hon
      exact get?_finishAnalysis_congr h seq
    | remove d =>
      cases hon
      show (s.remove id).2.get? id = (t.remove id).2.get? id
      rw [get?_remove_self, get?_remove_self]
  · cases hother : op.document? with
    | some d =>
      have hne : id ≠ d := by
        rintro rfl
        exact hon hother
      rw [get?_perform_of_ne hother hne, get?_perform_of_ne hother hne, h]
    | none =>
      cases op with
      | setConfig config =>
        show (s.setConfig config).2.get? id = (t.setConfig config).2.get? id
        rw [get?_setConfig, get?_setConfig, h]
      | _ => cases hother

theorem perform_config_congr (h : s.config = t.config) (now : Duration) (op : Operation) :
    (s.perform now op).config = (t.perform now op).config := by
  cases op with
  | setConfig config => simp [DocumentStore.perform]
  | _ => simp [DocumentStore.perform, setInFlight_snd, modify, remove, h]

namespace AgreeOn

/-- Both take the same result in, or neither does. -/
theorem setResult (h : AgreeOn id now s t) (fp : Fingerprint) (f : List Finding)
    (hid : c.key.document = id) (hfresh : s.isExpired now c = false) :
    c ∈ (s.setResult now id fp f).2.cache ↔ c ∈ (t.setResult now id fp f).2.cache := by
  have hboth : (s.setResult now id fp f).1 = (t.setResult now id fp f).1 := by
    rw [setResult_fst, setResult_fst, recordResult_fst, recordResult_fst, h.entry]
  by_cases htaken : (t.setResult now id fp f).1 = true
  · rw [setResult_cache htaken, setResult_cache (hboth.trans htaken), List.mem_filter,
      List.mem_filter, List.mem_append, List.mem_append, List.mem_filter, List.mem_filter,
      h.cached c hid hfresh, h.config, isExpired_congr h.maxCacheAge]
  · have hnot : (t.setResult now id fp f).1 = false := by simpa using htaken
    rw [setResult_of_not hnot, setResult_of_not (hboth.trans hnot)]
    exact h.cached c hid hfresh

theorem perform (h : AgreeOn id now s t) (op : Operation) :
    AgreeOn id now (s.perform now op) (t.perform now op) := by
  have hage : (s.perform now op).maxCacheAge = (t.perform now op).maxCacheAge := by
    rw [perform_maxCacheAge, perform_maxCacheAge, h.maxCacheAge]
  refine ⟨get?_perform_congr h.entry now op, perform_config_congr h.config now op, hage, ?_⟩
  intro c hid hfresh
  rw [isExpired_congr (perform_maxCacheAge now s op)] at hfresh
  cases hop : op.document? with
  | some d =>
    by_cases hd : id = d
    · subst hd
      cases op with
      | setConfig config => cases hop
      | setResult d fp f => cases hop; exact h.setResult fp f hid hfresh
      | remove d =>
        cases hop
        show c ∈ s.cache.filter (·.key.document ≠ id) ↔ c ∈ t.cache.filter (·.key.document ≠ id)
        rw [List.mem_filter, List.mem_filter, h.cached c hid hfresh]
      | _ =>
        rw [perform_cache rfl, perform_cache rfl]
        exact h.cached c hid hfresh
    · have hne : c.key.document ≠ d := hid ▸ hd
      have hfresh' : t.isExpired now c = false := isExpired_congr h.maxCacheAge now c ▸ hfresh
      rw [mem_perform_cache_of_ne hop hne hfresh, h.cached c hid hfresh,
        mem_perform_cache_of_ne hop hne hfresh']
  | none =>
    cases op with
    | setConfig config =>
      show c ∈ (s.setConfig config).2.cache ↔ c ∈ (t.setConfig config).2.cache
      unfold setConfig
      rw [h.config]
      split
      · exact h.cached c hid hfresh
      · exact Iff.rfl
    | _ => cases hop

/-- No operations tell two stores apart that know the same of a document. -/
theorem performAll (h : AgreeOn id now s t) (l : List (Duration × Operation)) :
    AgreeOn id (now + lasting l) (s.performAll now l) (t.performAll now l) := by
  induction l generalizing now s t with
  | nil => exact h
  | cons x l ih =>
    have hnext := ih ((h.later (Nat.le_add_right now x.1)).perform x.2)
    rw [Nat.add_assoc] at hnext
    exact hnext

end AgreeOn

/-- An operation on a document leaves the entries of all others, and what is looked up for them,
now and later, whatever is done to both stores in between.  This holds of all stores in which no
result is twice, so of those of all runs. -/
theorem others_unaffected :
    (∀ r : Run, r.store.Distinct) ∧
    ∀ (s : DocumentStore) (now : Duration) (op : Operation) (id other : DocumentId), s.Distinct →
      op.document? = some id → other ≠ id → ∀ (l : List (Duration × Operation)),
        ((s.perform now op).performAll now l).get? other = (s.performAll now l).get? other ∧
        ∀ wait, ((s.perform now op).performAll now l).getCached? (now + lasting l + wait) other =
          (s.performAll now l).getCached? (now + lasting l + wait) other := by
  refine ⟨Run.distinct, ?_⟩
  intro s now op id other hs hop hne l
  have hstart : AgreeOn other now (s.perform now op) s := agreeOn_perform hop hne
  have hagree := hstart.performAll l
  refine ⟨hagree.entry, ?_⟩
  intro wait
  exact (hagree.later (Nat.le_add_right _ wait)).getCached?_eq
    ((hs.perform now op).performAll now l)
    (hs.performAll now l)

/-- Two documents of one text; what is cached for the second one expires in between. -/
def sameText : DocumentStore :=
  let x := Fingerprint.ofText "x"
  { documents := [{ id := ⟨"a.go"⟩, content := "x", fingerprint := x },
      { id := ⟨"b.go"⟩, content := "x", fingerprint := x }]
    cache := [⟨⟨⟨"b.go"⟩, x, ⟨"e76f3a43e0a9ab77"⟩⟩, [], 0⟩]
    config := ⟨"e76f3a43e0a9ab77"⟩
    maxCacheAge := 10 }

/-- A result of the first document makes the store forget that of the second one, which nobody
notices. -/
theorem others_unaffected_forgotten :
    let op := Operation.setResult ⟨"a.go"⟩ (Fingerprint.ofText "x") []
    let back : List (Duration × Operation) := [(1, .upsert ⟨"b.go"⟩ "y"), (1, .upsert ⟨"b.go"⟩ "x")]
    sameText.Distinct ∧ op.document? = some ⟨"a.go"⟩ ∧
      (∀ c ∈ (sameText.perform 11 op).cache, c.key.document ≠ ⟨"b.go"⟩) ∧
      sameText.getCached? 10 ⟨"b.go"⟩ = some [] ∧
      ((sameText.perform 11 op).performAll 11 back).getCached? (11 + lasting back + 0) ⟨"b.go"⟩ =
        (sameText.performAll 11 back).getCached? (11 + lasting back + 0) ⟨"b.go"⟩ := by
  intro op back
  have hdistinct : sameText.Distinct := List.nodup_singleton _
  have hsame := others_unaffected.2 sameText 11 op ⟨"a.go"⟩ ⟨"b.go"⟩ hdistinct rfl (by decide) back
  exact ⟨hdistinct, rfl, by decide +kernel, by decide +kernel, hsame.2 0⟩

end DocumentStore

end SmellWatch
