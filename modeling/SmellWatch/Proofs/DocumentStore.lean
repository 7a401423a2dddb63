import Mathlib.Data.List.Nodup
import SmellWatch.DocumentStore
/-! What the operations of the store do to the entry of a document.

Each operation is told by `get?`: what the entry of its document is afterwards
(`get?_upsert_self`, `get?_recordResult_self`, …), and that all other entries stay as
they are.  The cache and the settings change only where a statement says so. -/

namespace SmellWatch

namespace DocumentStore

variable {s : DocumentStore} {id other : DocumentId} {e : DocumentEntry}

/-! ## Changing one entry -/

theorem find?_map_entry (l : List DocumentEntry) (id other : DocumentId)
    (f : DocumentEntry → DocumentEntry) (hf : ∀ e, (f e).id = e.id) :
    (l.map fun e => if e.id = id then f e else e).find? (·.id = other) =
      (l.find? (·.id = other)).map fun e => if other = id then f e else e := by
  induction l with
  | nil => rfl
  | cons x r ih =>
    have hid : (if x.id = id then f x else x).id = x.id := by
      split
      · exact hf x
      · rfl
    simp only [List.map_cons, List.find?_cons, hid]
    by_cases hx : x.id = other
    · simp [hx]
    · simp only [hx, decide_false, ih]

theorem get?_modify_self (f : DocumentEntry → DocumentEntry) (hf : ∀ e, (f e).id = e.id) :
    (s.modify id f).get? id = (s.get? id).map f := by
  unfold get? modify
  rw [find?_map_entry _ _ _ _ hf]
  simp

theorem get?_modify_of_ne (f : DocumentEntry → DocumentEntry) (hf : ∀ e, (f e).id = e.id)
    (h : other ≠ id) : (s.modify id f).get? other = s.get? other := by
  unfold get? modify
  rw [find?_map_entry _ _ _ _ hf]
  simp [h]

theorem id_of_get? (h : s.get? id = some e) : e.id = id := by
  have := List.find?_some h
  simpa using this

theorem mem_of_get? (h : s.get? id = some e) : e ∈ s.documents := List.mem_of_find?_eq_some h

/-! ## Texts -/

/-- The entry of a document that has a text of this fingerprint already stays. -/
theorem upsert_same {content : String} (h : s.get? id = some e)
    (hfp : e.fingerprint = Fingerprint.ofText content) : s.upsert id content = (false, s) := by
  simp [upsert, h, hfp]

/-- A document is not open with a text of this fingerprint. -/
def IsNews (s : DocumentStore) (id : DocumentId) (fp : Fingerprint) : Prop :=
  ∀ e, s.get? id = some e → e.fingerprint ≠ fp

theorem upsert_of_not_isNews {content : String} (h : ¬ s.IsNews id (Fingerprint.ofText content)) :
    s.upsert id content = (false, s) := by
  unfold IsNews at h
  push Not at h
  obtain ⟨e, he, hsame⟩ := h
  exact upsert_same he hsame

/-- The entry of a document whose text is replaced. -/
def retext (id : DocumentId) (content : String) : Option DocumentEntry → DocumentEntry
  | none => { id, content, fingerprint := Fingerprint.ofText content }
  | some e => { e with content, fingerprint := Fingerprint.ofText content, inFlight := false }

@[simp] theorem retext_fingerprint (id : DocumentId) (content : String)
    (e : Option DocumentEntry) :
    (retext id content e).fingerprint = Fingerprint.ofText content := by
  cases e <;> rfl

@[simp] theorem retext_inFlight (id : DocumentId) (content : String) (e : Option DocumentEntry) :
    (retext id content e).inFlight = false := by
  cases e <;> rfl

theorem upsert_news {content : String} (h : s.IsNews id (Fingerprint.ofText content)) :
    (s.upsert id content).1 = true := by
  unfold upsert
  cases hs : s.get? id with
  | none => simp
  | some e => simp [h e hs]

theorem get?_upsert_self {content : String} (h : s.IsNews id (Fingerprint.ofText content)) :
    (s.upsert id content).2.get? id = some (retext id content (s.get? id)) := by
  unfold upsert
  cases hs : s.get? id with
  | none =>
    have hnone : s.documents.find? (·.id = id) = none := hs
    simp [get?, List.find?_append, hnone, retext]
  | some e =>
    simp only [h e hs, if_false]
    rw [get?_modify_self, hs]
    · rfl
    · intro x
      rfl

theorem get?_upsert_of_ne {content : String} (h : other ≠ id) :
    (s.upsert id content).2.get? other = s.get? other := by
  unfold upsert
  cases hs : s.get? id with
  | none => simp [get?, List.find?_append, Ne.symm h]
  | some e =>
    simp only
    split
    · rfl
    · exact get?_modify_of_ne _ (fun _ => rfl) h

@[simp] theorem upsert_cache (s : DocumentStore) (id : DocumentId) (content : String) :
    (s.upsert id content).2.cache = s.cache := by
  unfold upsert modify
  cases s.get? id with
  | none => rfl
  | some e => simp only; split <;> rfl

@[simp] theorem upsert_config (s : DocumentStore) (id : DocumentId) (content : String) :
    (s.upsert id content).2.config = s.config := by
  unfold upsert modify
  cases s.get? id with
  | none => rfl
  | some e => simp only; split <;> rfl

@[simp] theorem upsert_maxCacheAge (s : DocumentStore) (id : DocumentId) (content : String) :
    (s.upsert id content).2.maxCacheAge = s.maxCacheAge := by
  unfold upsert modify
  cases s.get? id with
  | none => rfl
  | some e => simp only; split <;> rfl

/-! ## Results -/

/-- An entry with a result for its text. -/
def answered (now : Duration) (findings : List Finding) (e : DocumentEntry) : DocumentEntry :=
  { e with
    result := findings
    resultFingerprint := some e.fingerprint
    analyzedAt := some now
    inFlight := false }

/-- A result is taken in exactly if its document is open with the text it is about. -/
theorem recordResult_fst (now : Duration) (s : DocumentStore) (id : DocumentId) (fp : Fingerprint)
    (findings : List Finding) :
    (s.recordResult now id fp findings).1 = (s.get? id).any (·.fingerprint = fp) := by
  unfold recordResult
  cases s.get? id with
  | none => rfl
  | some e => by_cases h : e.fingerprint = fp <;> simp [h]

theorem get?_recordResult_self {now : Duration} {fp : Fingerprint} {findings : List Finding}
    (h : s.get? id = some e) (hfp : e.fingerprint = fp) :
    (s.recordResult now id fp findings).2.get? id = some (answered now findings e) := by
  subst hfp
  simp only [recordResult, h, if_true]
  rw [get?_modify_self, h]
  · rfl
  · intro x
    rfl

theorem get?_recordResult_of_ne {now : Duration} {fp : Fingerprint} {findings : List Finding}
    (h : other ≠ id) : (s.recordResult now id fp findings).2.get? other = s.get? other := by
  unfold recordResult
  cases s.get? id with
  | none => rfl
  | some e =>
    simp only
    split
    · exact get?_modify_of_ne _ (fun _ => rfl) h
    · rfl

theorem recordResult_of_not {now : Duration} {fp : Fingerprint} {findings : List Finding}
    (h : (s.recordResult now id fp findings).1 = false) :
    (s.recordResult now id fp findings).2 = s := by
  rw [recordResult_fst] at h
  unfold recordResult
  cases hs : s.get? id with
  | none => rfl
  | some e =>
    have : e.fingerprint ≠ fp := by simpa [hs] using h
    simp [this]

@[simp] theorem recordResult_cache (now : Duration) (s : DocumentStore) (id : DocumentId)
    (fp : Fingerprint) (findings : List Finding) :
    (s.recordResult now id fp findings).2.cache = s.cache := by
  unfold recordResult modify
  split
  · rfl
  · split <;> rfl

@[simp] theorem recordResult_config (now : Duration) (s : DocumentStore) (id : DocumentId)
    (fp : Fingerprint) (findings : List Finding) :
    (s.recordResult now id fp findings).2.config = s.config := by
  unfold recordResult modify
  split
  · rfl
  · split <;> rfl

@[simp] theorem recordResult_maxCacheAge (now : Duration) (s : DocumentStore) (id : DocumentId)
    (fp : Fingerprint) (findings : List Finding) :
    (s.recordResult now id fp findings).2.maxCacheAge = s.maxCacheAge := by
  unfold recordResult modify
  split
  · rfl
  · split <;> rfl

theorem setResult_fst (now : Duration) (s : DocumentStore) (id : DocumentId) (fp : Fingerprint)
    (findings : List Finding) :
    (s.setResult now id fp findings).1 = (s.recordResult now id fp findings).1 := by
  unfold setResult
  split <;> rename_i h <;> rw [h]

@[simp] theorem get?_setResult (now : Duration) (s : DocumentStore) (id other : DocumentId)
    (fp : Fingerprint) (findings : List Finding) :
    (s.setResult now id fp findings).2.get? other =
      (s.recordResult now id fp findings).2.get? other := by
  unfold setResult get?
  split <;> rename_i h <;> rw [h]

@[simp] theorem setResult_config (now : Duration) (s : DocumentStore) (id : DocumentId)
    (fp : Fingerprint) (findings : List Finding) :
    (s.setResult now id fp findings).2.config = s.config := by
  have h := recordResult_config now s id fp findings
  unfold setResult
  split <;> rename_i hr <;> rw [hr] at h <;> exact h

@[simp] theorem setResult_maxCacheAge (now : Duration) (s : DocumentStore) (id : DocumentId)
    (fp : Fingerprint) (findings : List Finding) :
    (s.setResult now id fp findings).2.maxCacheAge = s.maxCacheAge := by
  have h := recordResult_maxCacheAge now s id fp findings
  unfold setResult
  split <;> rename_i hr <;> rw [hr] at h <;> exact h

theorem setResult_of_not {now : Duration} {fp : Fingerprint} {findings : List Finding}
    (h : (s.setResult now id fp findings).1 = false) :
    (s.setResult now id fp findings).2 = s := by
  rw [setResult_fst] at h
  have hs := recordResult_of_not h
  unfold setResult
  split <;> rename_i hr <;> rw [hr] at h hs
  · exact hs
  · cases h

/-- What the cache holds after a result was taken in. -/
theorem setResult_cache {now : Duration} {fp : Fingerprint} {findings : List Finding}
    (h : (s.setResult now id fp findings).1 = true) :
    (s.setResult now id fp findings).2.cache =
      List.filter (!s.isExpired now ·)
        (s.cache.filter (·.key ≠ ⟨id, fp, s.config⟩) ++ [⟨⟨id, fp, s.config⟩, findings, now⟩]) := by
  rw [setResult_fst] at h
  have hcache := recordResult_cache now s id fp findings
  have hconfig := recordResult_config now s id fp findings
  have hage := recordResult_maxCacheAge now s id fp findings
  unfold setResult isExpired
  split <;> rename_i hr <;> rw [hr] at h hcache hconfig hage
  · cases h
  · simp only at hcache hconfig hage
    simp only [hcache, hconfig, hage]

/-! ## Analyses under way -/

/-- The entry of a document of which an analysis is begun. -/
def engaged (e : DocumentEntry) : DocumentEntry := { e with inFlight := true, seq := e.seq + 1 }

theorem beginAnalysis_of_none (h : s.get? id = none) : s.beginAnalysis id = (none, s) := by
  simp [beginAnalysis, h]

theorem beginAnalysis_of_inFlight (h : s.get? id = some e) (hf : e.inFlight = true) :
    s.beginAnalysis id = (none, s) := by
  simp [beginAnalysis, h, hf]

theorem beginAnalysis_of_free (h : s.get? id = some e) (hf : e.inFlight = false) :
    s.beginAnalysis id = (some (engaged e), s.modify id engaged) := by
  simp [beginAnalysis, h, hf, engaged]
  rfl

theorem get?_engaged_self (h : s.get? id = some e) :
    (s.modify id engaged).get? id = some (engaged e) := by
  rw [get?_modify_self engaged (fun _ => rfl), h]
  rfl

theorem get?_engaged_of_ne (h : other ≠ id) :
    (s.modify id engaged).get? other = s.get? other :=
  get?_modify_of_ne _ (fun _ => rfl) h

/-- The entry of a document after the end of its analysis of a number. -/
def freed (seq : Nat) (e : DocumentEntry) : DocumentEntry :=
  { e with inFlight := e.inFlight && e.seq ≠ seq }

theorem get?_finishAnalysis_self (seq : Nat) (h : s.get? id = some e) :
    (s.finishAnalysis id seq).2.get? id = some (freed seq e) := by
  unfold finishAnalysis freed
  by_cases hb : e.seq = seq ∧ e.inFlight = true
  · simp only [h, Option.any_some, hb, decide_true, Bool.and_self, if_true]
    rw [get?_modify_self, h]
    · simp [hb.1]
    · intro x
      rfl
  · simp only [h, Option.any_some]
    rw [if_neg (by simpa using hb)]
    simp only [h, Option.some.injEq]
    cases e with | mk id content fp result rfp at_ inFlight sq =>
      cases inFlight <;> simp_all

theorem get?_finishAnalysis_of_ne (seq : Nat) (h : other ≠ id) :
    (s.finishAnalysis id seq).2.get? other = s.get? other := by
  unfold finishAnalysis
  split
  · exact get?_modify_of_ne _ (fun _ => rfl) h
  · rfl

theorem get?_finishAnalysis_of_none (seq : Nat) (h : s.get? id = none) :
    (s.finishAnalysis id seq).2 = s := by
  simp [finishAnalysis, h]

@[simp] theorem finishAnalysis_cache (s : DocumentStore) (id : DocumentId) (seq : Nat) :
    (s.finishAnalysis id seq).2.cache = s.cache := by
  unfold finishAnalysis modify
  split <;> rfl

@[simp] theorem finishAnalysis_config (s : DocumentStore) (id : DocumentId) (seq : Nat) :
    (s.finishAnalysis id seq).2.config = s.config := by
  unfold finishAnalysis modify
  split <;> rfl

@[simp] theorem finishAnalysis_maxCacheAge (s : DocumentStore) (id : DocumentId) (seq : Nat) :
    (s.finishAnalysis id seq).2.maxCacheAge = s.maxCacheAge := by
  unfold finishAnalysis modify
  split <;> rfl

/-! ## Settings and documents that go -/

@[simp] theorem get?_setConfig (s : DocumentStore) (config : Fingerprint) (id : DocumentId) :
    (s.setConfig config).2.get? id = s.get? id := by
  unfold setConfig get?
  split <;> rfl

@[simp] theorem setConfig_config (s : DocumentStore) (config : Fingerprint) :
    (s.setConfig config).2.config = config := by
  unfold setConfig
  split
  · assumption
  · rfl

@[simp] theorem setConfig_maxCacheAge (s : DocumentStore) (config : Fingerprint) :
    (s.setConfig config).2.maxCacheAge = s.maxCacheAge := by
  unfold setConfig
  split <;> rfl

theorem setConfig_fst (s : DocumentStore) (config : Fingerprint) :
    (s.setConfig config).1 = decide (s.config ≠ config) := by
  unfold setConfig
  split <;> simp_all

theorem find?_filter_id (l : List DocumentEntry) (id other : DocumentId) :
    (l.filter (·.id ≠ id)).find? (·.id = other) =
      if other = id then none else l.find? (·.id = other) := by
  induction l with
  | nil => simp
  | cons x r ih =>
    simp only [List.filter_cons, List.find?_cons]
    by_cases hx : x.id = id
    · simp only [hx, ne_eq, not_true_eq_false, decide_false, Bool.false_eq_true, if_false, ih]
      by_cases ho : other = id
      · simp [ho]
      · simp [ho, Ne.symm ho]
    · simp only [hx, ne_eq, not_false_eq_true, decide_true, if_true, List.find?_cons, ih]
      by_cases ho : other = id
      · subst ho
        simp [hx]
      · simp [ho]

theorem get?_remove_self : (s.remove id).2.get? id = none := by
  unfold remove get?
  rw [find?_filter_id]
  simp

theorem get?_remove_of_ne (h : other ≠ id) : (s.remove id).2.get? other = s.get? other := by
  unfold remove get?
  rw [find?_filter_id]
  simp [h]

/-! ## What a document is about -/

/-- The text of an open document, by its fingerprint. -/
def text? (s : DocumentStore) (id : DocumentId) : Option Fingerprint :=
  (s.get? id).map (·.fingerprint)

theorem text?_of_get? (h : s.get? id = some e) : s.text? id = some e.fingerprint := by
  unfold text?
  rw [h]
  rfl

theorem get?_of_text? {fp : Fingerprint} (h : s.text? id = some fp) :
    ∃ e, s.get? id = some e ∧ e.fingerprint = fp := Option.map_eq_some_iff.mp h

/-- A change to an entry that is not about its text leaves all texts. -/
theorem text?_modify (id other : DocumentId) {f : DocumentEntry → DocumentEntry}
    (hid : ∀ e, (f e).id = e.id) (hfp : ∀ e, (f e).fingerprint = e.fingerprint) :
    (s.modify id f).text? other = s.text? other := by
  unfold text?
  by_cases ho : other = id
  · subst ho
    rw [get?_modify_self f hid, Option.map_map]
    exact congrArg (Option.map · (s.get? other)) (funext hfp)
  · rw [get?_modify_of_ne f hid ho]

theorem text?_recordResult (now : Duration) (s : DocumentStore) (id other : DocumentId)
    (fp : Fingerprint) (findings : List Finding) :
    (s.recordResult now id fp findings).2.text? other = s.text? other := by
  unfold recordResult
  split
  · rfl
  · split
    · exact text?_modify id other (fun _ => rfl) fun _ => rfl
    · rfl

theorem text?_setResult (now : Duration) (s : DocumentStore) (id other : DocumentId)
    (fp : Fingerprint) (findings : List Finding) :
    (s.setResult now id fp findings).2.text? other = s.text? other := by
  have h := text?_recordResult now s id other fp findings
  unfold text? at h ⊢
  rw [get?_setResult]
  exact h

theorem text?_engaged (s : DocumentStore) (id other : DocumentId) :
    (s.modify id engaged).text? other = s.text? other :=
  text?_modify id other (fun _ => rfl) fun _ => rfl

theorem text?_finishAnalysis (s : DocumentStore) (id other : DocumentId) (seq : Nat) :
    (s.finishAnalysis id seq).2.text? other = s.text? other := by
  unfold finishAnalysis
  split
  · exact text?_modify id other (fun _ => rfl) fun _ => rfl
  · rfl

theorem text?_setConfig (s : DocumentStore) (config : Fingerprint) (id : DocumentId) :
    (s.setConfig config).2.text? id = s.text? id := by
  unfold text?
  rw [get?_setConfig]

theorem text?_upsert_self {content : String} (h : s.IsNews id (Fingerprint.ofText content)) :
    (s.upsert id content).2.text? id = some (Fingerprint.ofText content) := by
  unfold text?
  rw [get?_upsert_self h]
  cases s.get? id <;> rfl

theorem text?_upsert_of_ne {content : String} (h : other ≠ id) :
    (s.upsert id content).2.text? other = s.text? other := by
  unfold text?
  rw [get?_upsert_of_ne h]

theorem text?_remove_self : (s.remove id).2.text? id = none := by
  unfold text?
  rw [get?_remove_self]
  rfl

theorem text?_remove_of_ne (h : other ≠ id) : (s.remove id).2.text? other = s.text? other := by
  unfold text?
  rw [get?_remove_of_ne h]

/-- The texts of the open documents, with their fingerprints, are as `P` says. -/
def About (s : DocumentStore) (P : String → Fingerprint → Prop) : Prop :=
  ∀ e ∈ s.documents, P e.content e.fingerprint

namespace About

variable {P : String → Fingerprint → Prop} {t : DocumentStore}

theorem of_documents (h : s.About P) (ht : t.documents = s.documents) : t.About P := by
  intro e he
  rw [ht] at he
  exact h e he

theorem modify (h : s.About P) (id : DocumentId) {f : DocumentEntry → DocumentEntry}
    (hf : ∀ e, P e.content e.fingerprint → P (f e).content (f e).fingerprint) :
    (s.modify id f).About P := by
  intro e he
  obtain ⟨x, hx, rfl⟩ := List.mem_map.mp he
  split
  · exact hf x (h x hx)
  · exact h x hx

theorem upsert (h : s.About P) (id : DocumentId) {content : String}
    (hP : P content (Fingerprint.ofText content)) : (s.upsert id content).2.About P := by
  unfold DocumentStore.upsert
  dsimp only
  split
  · intro e he
    rcases List.mem_append.mp he with he | he
    · exact h e he
    · rw [List.mem_singleton.mp he]
      exact hP
  · split
    · exact h
    · exact h.modify id fun _ _ => hP

theorem recordResult (h : s.About P) (now : Duration) (id : DocumentId) (fp : Fingerprint)
    (findings : List Finding) : (s.recordResult now id fp findings).2.About P := by
  unfold DocumentStore.recordResult
  split
  · exact h
  · split
    · exact h.modify id fun _ hx => hx
    · exact h

theorem setResult (h : s.About P) (now : Duration) (id : DocumentId) (fp : Fingerprint)
    (findings : List Finding) : (s.setResult now id fp findings).2.About P := by
  have hrecorded := h.recordResult now id fp findings
  unfold DocumentStore.setResult
  split <;> rename_i hr <;> rw [hr] at hrecorded
  · exact hrecorded
  · exact hrecorded.of_documents rfl

theorem engaged (h : s.About P) (id : DocumentId) : (s.modify id engaged).About P :=
  h.modify id fun _ hx => hx

theorem finishAnalysis (h : s.About P) (id : DocumentId) (seq : Nat) :
    (s.finishAnalysis id seq).2.About P := by
  unfold DocumentStore.finishAnalysis
  split
  · exact h.modify id fun _ hx => hx
  · exact h

theorem setConfig (h : s.About P) (config : Fingerprint) : (s.setConfig config).2.About P := by
  unfold DocumentStore.setConfig
  split
  · exact h
  · exact h.of_documents rfl

theorem remove (h : s.About P) (id : DocumentId) : (s.remove id).2.About P :=
  fun e he => h e (List.mem_filter.mp he).1

theorem imp {Q : String → Fingerprint → Prop} (h : s.About P)
    (hPQ : ∀ content fp, P content fp → Q content fp) : s.About Q :=
  fun e he => hPQ _ _ (h e he)

theorem of_get? (h : s.About P) (he : s.get? id = some e) : P e.content e.fingerprint :=
  h e (mem_of_get? he)

end About

/-! ## The age of what is cached -/

/-- What has expired stays so. -/
theorem isExpired_mono {now later : Duration} {c : CacheEntry} (h : s.isExpired now c = true)
    (hle : now ≤ later) : s.isExpired later c = true := by
  unfold isExpired at h ⊢
  rw [decide_eq_true_eq] at h ⊢
  exact Nat.lt_of_lt_of_le h (Nat.sub_le_sub_right hle c.storedAt)

/-- No two cached results belong to the same document, text and settings. -/
def Distinct (s : DocumentStore) : Prop := (s.cache.map (·.key)).Nodup

theorem Distinct.eq_of_key (h : s.Distinct) {c d : CacheEntry} (hc : c ∈ s.cache)
    (hd : d ∈ s.cache) (hkey : c.key = d.key) : c = d :=
  List.inj_on_of_nodup_map h hc hd hkey

/-- Nothing is found for a document exactly if all that was cached for its text has
expired. -/
theorem getCached?_eq_none_iff (h : s.Distinct) {fp : Fingerprint} {now : Duration}
    (ht : s.text? id = some fp) :
    s.getCached? now id = none ↔
      ∀ c ∈ s.cache, c.key = ⟨id, fp, s.config⟩ → s.isExpired now c = true := by
  obtain ⟨e, he, rfl⟩ := get?_of_text? ht
  unfold getCached?
  rw [he]
  simp only [Option.bind_eq_bind, Option.bind_some]
  cases hf : s.cache.find? (·.key = ⟨id, e.fingerprint, s.config⟩) with
  | none =>
    rw [List.find?_eq_none] at hf
    simp only [Option.bind_none, true_iff]
    intro c hc hkey
    exact absurd (decide_eq_true hkey) (hf c hc)
  | some c =>
    have hc := List.mem_of_find?_eq_some hf
    have hkey : c.key = ⟨id, e.fingerprint, s.config⟩ := by simpa using List.find?_some hf
    simp only [Option.bind_some]
    constructor
    · intro hnone d hd hdkey
      rw [h.eq_of_key hd hc (hdkey.trans hkey.symm)]
      by_contra hfresh
      rw [if_neg hfresh] at hnone
      cases hnone
    · intro hall
      rw [if_pos (hall c hc hkey)]

end DocumentStore

end SmellWatch
