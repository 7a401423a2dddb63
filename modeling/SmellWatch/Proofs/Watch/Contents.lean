import SmellWatch.Proofs.Watch.Stride
/-! The documents that are open, and their contents.

Only what the editor does with documents changes them (`contents_step`); results, settings and
tasks leave them alone.  What is said of the text of a document takes its place in the store
(`contents_update`). -/

namespace SmellWatch

namespace DocumentStore

/-- The open documents with their contents, in the order in which they were opened. -/
def contents (s : DocumentStore) : List (DocumentId × String) :=
  s.documents.map fun d => (d.id, d.content)

/-- A change to an entry that is not about its content leaves all contents. -/
theorem contents_modify (s : DocumentStore) (id : DocumentId) {f : DocumentEntry → DocumentEntry}
    (hf : ∀ d, (f d).id = d.id ∧ (f d).content = d.content) :
    (s.modify id f).contents = s.contents := by
  unfold contents modify
  rw [List.map_map]
  refine List.map_congr_left fun d _ => ?_
  show (fun d : DocumentEntry => (d.id, d.content)) (if d.id = id then f d else d) = _
  split
  · exact Prod.ext (hf d).1 (hf d).2
  · rfl

theorem contents_recordResult (now : Duration) (s : DocumentStore) (id : DocumentId)
    (fp : Fingerprint) (findings : List Finding) :
    (s.recordResult now id fp findings).2.contents = s.contents := by
  unfold recordResult
  split
  · rfl
  · split
    · exact contents_modify s id fun _ => ⟨rfl, rfl⟩
    · rfl

theorem contents_setResult (now : Duration) (s : DocumentStore) (id : DocumentId)
    (fp : Fingerprint) (findings : List Finding) :
    (s.setResult now id fp findings).2.contents = s.contents := by
  have h := contents_recordResult now s id fp findings
  unfold setResult
  split
  · rename_i hr
    rw [hr] at h
    exact h
  · rename_i hr
    rw [hr] at h
    exact h

theorem contents_engaged (s : DocumentStore) (id : DocumentId) :
    (s.modify id engaged).contents = s.contents :=
  contents_modify s id fun _ => ⟨rfl, rfl⟩

theorem contents_finishAnalysis (s : DocumentStore) (id : DocumentId) (seq : Nat) :
    (s.finishAnalysis id seq).2.contents = s.contents := by
  unfold finishAnalysis
  split
  · exact contents_modify s id fun _ => ⟨rfl, rfl⟩
  · rfl

theorem contents_setConfig (s : DocumentStore) (config : Fingerprint) :
    (s.setConfig config).2.contents = s.contents := by
  unfold setConfig
  split <;> rfl

/-! ## The content of one document -/

variable {s t : DocumentStore} {id other : DocumentId} {content : String}

/-- The content of an open document. -/
def content? (s : DocumentStore) (id : DocumentId) : Option String :=
  (s.get? id).map (·.content)

theorem content?_eq_find? (s : DocumentStore) (id : DocumentId) :
    s.content? id = (s.contents.find? (·.1 = id)).map (·.2) := by
  unfold content? contents get?
  rw [List.find?_map, Option.map_map]
  rfl

theorem content?_congr (h : s.contents = t.contents) (id : DocumentId) :
    s.content? id = t.content? id := by
  rw [content?_eq_find?, content?_eq_find?, h]

theorem content?_upsert_self (h : s.IsNews id (Fingerprint.ofText content)) :
    (s.upsert id content).2.content? id = some content := by
  unfold content?
  rw [get?_upsert_self h]
  cases s.get? id <;> rfl

theorem content?_upsert_of_ne (h : other ≠ id) :
    (s.upsert id content).2.content? other = s.content? other := by
  unfold content?
  rw [get?_upsert_of_ne h]

theorem content?_remove_self : (s.remove id).2.content? id = none := by
  unfold content?
  rw [get?_remove_self]
  rfl

theorem content?_remove_of_ne (h : other ≠ id) :
    (s.remove id).2.content? other = s.content? other := by
  unfold content?
  rw [get?_remove_of_ne h]

end DocumentStore

namespace Watch

/-- The editor opens, changes, saves or closes a document. -/
def Event.isOfDocument : Event → Bool
  | .opened _ _ | .changed _ _ | .saved _ | .closed _ => true
  | _ => false

theorem Event.text?_of_not_isOfDocument {e : Event} (h : e.isOfDocument = false) :
    e.text? = none := by
  cases e <;> first | rfl | cases h

/-- The open documents and their contents change only when a text is said or a document is
closed. -/
theorem contents_step_of_silent {e : Event} (htext : e.text? = none)
    (hopen : ∀ id, e ≠ .closed id) (now : Duration) (w : Watch) :
    (w.step now e).1.store.contents = w.store.contents := by
  cases stride_step now e w with
  | still hstore => rw [hstore]
  | edited _ _ _ _ _ _ _ _ _ _ _ _ _ hsaid =>
    rw [htext] at hsaid
    cases hsaid
  | replayed _ _ _ _ _ _ _ _ hstore _ _ _ _ _ _ _ hsaid =>
    rcases hsaid with rfl | ⟨_, hsaid, -⟩
    · rw [hstore, DocumentStore.contents_recordResult]
    · rw [htext] at hsaid
      cases hsaid
  | begun _ _ _ _ _ _ hstore => rw [hstore, DocumentStore.contents_engaged]
  | fellBack _ _ _ _ _ _ _ hstore =>
    rw [hstore, DocumentStore.contents_recordResult, DocumentStore.contents_engaged]
  | turned hstore => rw [hstore]
  | answered _ _ _ _ _ _ _ _ hstore =>
    rcases hstore with ⟨_, _, _, hstore⟩ | ⟨_, hstore⟩
    · rw [hstore, DocumentStore.contents_setResult]
    · rw [hstore, DocumentStore.contents_recordResult]
  | lapsed _ _ _ _ _ hstore => rw [hstore, DocumentStore.contents_finishAnalysis]
  | closed id _ _ _ _ hevent => exact absurd hevent (hopen id)
  | reconfigured _ hstore => rw [hstore, DocumentStore.contents_setConfig]
  | configSet _ hstore => rw [hstore, DocumentStore.contents_setConfig]
  | shutDown hstore => rw [hstore]

/-- The open documents and their contents change only by what the editor does with documents. -/
theorem contents_step {e : Event} (h : e.isOfDocument = false) (now : Duration) (w : Watch) :
    (w.step now e).1.store.contents = w.store.contents := by
  refine contents_step_of_silent (Event.text?_of_not_isOfDocument h) ?_ now w
  rintro id rfl
  cases h

/-- A text that is said is taken into the store, whatever else comes of it. -/
theorem contents_update (now : Duration) (id : DocumentId) (content : String) (w : Watch) :
    (w.update now id content).1.store.contents = (w.store.upsert id content).2.contents := by
  by_cases hnews : w.store.IsNews id (Fingerprint.ofText content)
  · cases hcached : (w.store.upsert id content).2.getCached? now id with
    | none =>
      rw [update_missed hnews hcached, schedule_store]
    | some findings =>
      rw [update_cached hnews hcached, flushed_store, DocumentStore.contents_recordResult]
  · rw [update_same now hnews, DocumentStore.upsert_of_not_isNews hnews]

end Watch

end SmellWatch
