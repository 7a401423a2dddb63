import SmellWatch.Proofs.Watch.Freshness
import SmellWatch.Proofs.Watch.Passage
/-! What is told and what the store keeps agree.

A step tells of one document at most: what it tells is then in the entry, or the document
is closed and told to have no findings (`telling`).  So what was told last of a document is
what the store keeps as its result, in every run (`lastTold_eq_result`). -/

namespace SmellWatch

namespace DocumentStore

variable {s t : DocumentStore} {id other : DocumentId}

/-- The result that is kept for a document; a document that is not open has none. -/
def result (s : DocumentStore) (id : DocumentId) : List Finding :=
  ((s.get? id).map (·.result)).getD []

theorem result_of_get? {e : DocumentEntry} (h : s.get? id = some e) : s.result id = e.result := by
  unfold result
  rw [h]
  rfl

theorem result_of_none (h : s.get? id = none) : s.result id = [] := by
  unfold result
  rw [h]
  rfl

theorem result_congr (h : t.get? id = s.get? id) : t.result id = s.result id := by
  unfold result
  rw [h]

/-- A change to an entry that is not about its result leaves all results. -/
theorem result_modify (id other : DocumentId) {f : DocumentEntry → DocumentEntry}
    (hid : ∀ e, (f e).id = e.id) (hresult : ∀ e, (f e).result = e.result) :
    (s.modify id f).result other = s.result other := by
  by_cases ho : other = id
  · subst ho
    unfold result
    rw [get?_modify_self f hid, Option.map_map]
    exact congrArg (·.getD []) (congrArg (Option.map · (s.get? other)) (funext hresult))
  · exact result_congr (get?_modify_of_ne f hid ho)

/-- The old result stays when a text comes; a document that is opened has none. -/
theorem result_upsert {content : String} (h : s.IsNews id (Fingerprint.ofText content))
    (other : DocumentId) : (s.upsert id content).2.result other = s.result other := by
  by_cases ho : other = id
  · subst ho
    rw [result_of_get? (get?_upsert_self h)]
    cases hs : s.get? other with
    | none => exact (result_of_none hs).symm
    | some e => exact (result_of_get? hs).symm
  · exact result_congr (get?_upsert_of_ne ho)

theorem result_finishAnalysis (s : DocumentStore) (id other : DocumentId) (seq : Nat) :
    (s.finishAnalysis id seq).2.result other = s.result other := by
  unfold finishAnalysis
  split
  · exact result_modify id other (fun _ => rfl) fun _ => rfl
  · rfl

end DocumentStore

namespace Watch

variable {now : Duration} {id : DocumentId} {r : Run} {e : Event} {findings : List Finding}

namespace Run

/-- All that was told in a run, and of which documents, the latest first. -/
def tidings : Run → List (DocumentId × List Finding)
  | start _ _ _ => []
  | next r now e => (next r now e).told.reverse ++ r.tidings

/-- The findings that were told of a document last; none, if it was never told of. -/
def lastTold (r : Run) (id : DocumentId) : List Finding :=
  ((r.tidings.find? (·.1 = id)).map (·.2)).getD []

/-- The result that the store keeps for a document. -/
abbrev result (r : Run) (id : DocumentId) : List Finding := r.watch.store.result id

end Run

/-! ## What a step tells -/

theorem told?_of_not {fx : List Effect} (h : ∀ id, tellsOf id fx = false) :
    fx.filterMap Effect.told? = [] := by
  rw [List.filterMap_eq_nil_iff]
  intro x hx
  cases x with
  | published id findings => exact absurd hx (not_published_of_tellsOf (h id) findings)
  | _ => rfl

theorem told_of_not (h : ∀ id, tellsOf id r.effects = false) : r.told = [] := told?_of_not h

theorem told_of_published (h : r.effects = [.published id findings]) :
    r.told = [(id, findings)] := by
  unfold Run.told
  rw [h]
  rfl

theorem told_of_closed (r : Run) (now : Duration) (id : DocumentId) :
    (r.next now (.closed id)).told = [(id, [])] := by
  obtain ⟨fx, hfx, hclose⟩ := close_effects now id r.watch
  have heffects : (r.next now (.closed id)).effects = fx ++ [.published id []] := hclose
  unfold Run.told
  rw [heffects, List.filterMap_append, told?_of_not hfx.2]
  rfl

/-- What a step tells, and what it makes of the results in the store. -/
inductive Telling (r : Run) (now : Duration) (e : Event) : Prop
  /-- Nothing is told, and all results stay. -/
  | silent (htold : (r.next now e).told = [])
      (hresults : ∀ id, (r.next now e).result id = r.result id)
  /-- What is told of a document is what its entry has now. -/
  | recorded (id : DocumentId) (findings : List Finding) (d : DocumentEntry)
      (htold : (r.next now e).told = [(id, findings)])
      (hopen : (r.next now e).get? id = some (DocumentStore.answered now findings d))
      (hothers : ∀ other, other ≠ id → (r.next now e).get? other = r.get? other)
  | closed (id : DocumentId) (hevent : e = .closed id)
      (htold : (r.next now e).told = [(id, [])]) (hgone : (r.next now e).get? id = none)
      (hothers : ∀ other, other ≠ id → (r.next now e).get? other = r.get? other)

/-- A step that leaves the documents as they are and tells nothing. -/
theorem telling_of_tacit (hfx : Tacit (r.next now e).effects)
    (hstore : ∀ id, (r.next now e).watch.store.get? id = r.watch.store.get? id) :
    Telling r now e :=
  .silent (told_of_not hfx.2) fun id => DocumentStore.result_congr (hstore id)

/-- A step that takes in what it tells of an open document. -/
theorem telling_of_recorded {s : DocumentStore} {d : DocumentEntry}
    (htold : (r.next now e).told = [(id, findings)]) (hopen : s.get? id = some d)
    (hstore : TakesIn now s id d.fingerprint findings (r.next now e).watch.store)
    (hothers : ∀ other, other ≠ id → s.get? other = r.get? other) : Telling r now e := by
  refine .recorded id findings d htold ?_ fun other ho => ?_
  · unfold Run.get?
    rw [hstore.get?_eq]
    exact DocumentStore.get?_recordResult_self hopen rfl
  · refine Eq.trans ?_ (hothers other ho)
    unfold Run.get?
    rw [hstore.get?_eq]
    exact DocumentStore.get?_recordResult_of_ne ho

/-- Every step is one of these. -/
theorem telling (r : Run) (now : Duration) (e : Event) : Telling r now e := by
  cases r.stride now e with
  | still hstore _ _ _ _ _ hfx => exact telling_of_tacit hfx fun id => by rw [hstore]
  | edited doc content hnews hstore _ _ _ _ _ _ hfx =>
    refine .silent (told_of_not hfx.2) fun id => ?_
    unfold Run.result
    rw [hstore]
    exact DocumentStore.result_upsert hnews id
  | replayed doc s d findings hreads hopen _ _ hstore _ _ _ _ _ hfx =>
    exact telling_of_recorded (told_of_published hfx) hopen (.inr hstore)
      fun other ho => get?_of_reads hreads ho
  | begun doc d a _ _ _ hstore _ _ _ _ _ _ htells =>
    refine .silent (told_of_not htells) fun id => ?_
    unfold Run.result
    rw [hstore]
    exact DocumentStore.result_modify doc id (fun _ => rfl) fun _ => rfl
  | fellBack doc d a findings hopen _ _ hstore _ _ _ _ _ hfx =>
    refine telling_of_recorded (s := r.watch.store.modify doc DocumentStore.engaged)
      (d := DocumentStore.engaged d) ?_ (DocumentStore.get?_engaged_self hopen) (.inr hstore)
      fun other ho => DocumentStore.get?_engaged_of_ne ho
    unfold Run.told
    rw [hfx]
    rfl
  | turned hstore _ _ _ _ _ hfx => exact telling_of_tacit hfx fun id => by rw [hstore]
  | answered o outcome d findings _ _ hopen _ hstore _ _ _ _ hfx =>
    exact telling_of_recorded (told_of_published hfx) hopen (.of_completed hstore)
      fun _ _ => rfl
  | lapsed o outcome _ _ _ hstore _ _ _ _ hfx =>
    refine .silent (told_of_not hfx.2) fun id => ?_
    unfold Run.result
    rw [hstore]
    exact DocumentStore.result_finishAnalysis _ _ _ _
  | closed doc hstore _ _ _ hevent =>
    subst hevent
    refine .closed doc rfl (told_of_closed r now doc) ?_ fun other ho => ?_
    · unfold Run.get?
      rw [hstore]
      exact DocumentStore.get?_remove_self
    · unfold Run.get?
      rw [hstore]
      exact DocumentStore.get?_remove_of_ne ho
  | reconfigured config hstore _ _ _ _ _ hfx =>
    refine telling_of_tacit hfx fun id => ?_
    rw [hstore]
    exact DocumentStore.get?_setConfig _ _ _
  | configSet config hstore _ _ _ _ hfx =>
    refine telling_of_tacit (hfx ▸ tacit_nil) fun id => ?_
    rw [hstore]
    exact DocumentStore.get?_setConfig _ _ _
  | shutDown hstore _ _ _ hfx => exact telling_of_tacit hfx fun id => by rw [hstore]

/-! ## What was told last -/

theorem tidings_next (r : Run) (now : Duration) (e : Event) :
    (r.next now e).tidings = (r.next now e).told.reverse ++ r.tidings := rfl

theorem lastTold_next_of_not (h : (r.next now e).told = []) (id : DocumentId) :
    (r.next now e).lastTold id = r.lastTold id := by
  unfold Run.lastTold
  rw [tidings_next, h]
  rfl

theorem lastTold_next_of_told (h : (r.next now e).told = [(id, findings)]) :
    (r.next now e).lastTold id = findings := by
  unfold Run.lastTold
  rw [tidings_next, h, List.reverse_singleton, List.singleton_append,
    List.find?_cons_of_pos (by simp)]
  rfl

theorem lastTold_next_of_other {other : DocumentId} (ho : other ≠ id)
    (h : (r.next now e).told = [(id, findings)]) :
    (r.next now e).lastTold other = r.lastTold other := by
  unfold Run.lastTold
  rw [tidings_next, h, List.reverse_singleton, List.singleton_append,
    List.find?_cons_of_neg (by simpa using ho.symm)]

/-- At the end of every run, what was told of a document last is the result that the store
keeps for it. -/
theorem lastTold_eq_result (r : Run) (id : DocumentId) : r.lastTold id = r.result id := by
  induction r with
  | start options config now => rfl
  | next r now e ih =>
    cases telling r now e with
    | silent htold hresults => rw [lastTold_next_of_not htold, ih, hresults]
    | recorded doc findings d htold hopen hothers =>
      by_cases hid : id = doc
      · subst hid
        rw [lastTold_next_of_told htold]
        exact (DocumentStore.result_of_get? hopen).symm
      · rw [lastTold_next_of_other hid htold, ih]
        exact (DocumentStore.result_congr (hothers id hid)).symm
    | closed doc _ htold hgone hothers =>
      by_cases hid : id = doc
      · subst hid
        rw [lastTold_next_of_told htold]
        exact (DocumentStore.result_of_none hgone).symm
      · rw [lastTold_next_of_other hid htold, ih]
        exact (DocumentStore.result_congr (hothers id hid)).symm

end Watch

end SmellWatch
