import SmellWatch.Proofs.Watch.Docket
/-! What one step of a run means for one document.

`Passage` tells of a document that is open after a step what became of its entry, of its
analyses since it was opened, and of the moment its result stems from.  `passage` says
that every step is one of these for every document.  What a run owes a document is
proved from it; the kinds of steps need not be looked at again. -/

namespace SmellWatch

namespace Watch

variable {now : Duration} {id : DocumentId} {r : Run} {e : Event} {c : Case} {m : Nat}

namespace Run

/-! ## Since when a document is open -/

theorem openSince?_isSome (r : Run) (id : DocumentId) :
    (r.openSince? id).isSome = (r.get? id).isSome := by
  cases r with
  | start options config now => rfl
  | next r now e =>
    unfold openSince?
    split
    · rename_i h
      rw [h]
      rfl
    · rename_i h
      simpa using h

theorem openSince?_eq_none (h : r.get? id = none) : r.openSince? id = none := by
  have := r.openSince?_isSome id
  rw [h] at this
  simpa using this

theorem openSince?_next (h : ((r.next now e).get? id).isSome) :
    (r.next now e).openSince? id = some ((r.openSince? id).getD r.moment) := if_pos h

theorem openSince?_lt {r : Run} {m : Nat} (h : r.openSince? id = some m) : m < r.moment := by
  induction r generalizing m with
  | start options config now => cases h
  | next r now e ih =>
    unfold openSince? at h
    split at h
    · cases h
      show (r.openSince? id).getD r.moment < r.moment + 1
      cases ho : r.openSince? id with
      | none => exact Nat.lt_succ_self _
      | some k =>
        have := ih ho
        simp only [Option.getD_some]
        omega
    · cases h

/-! ## Analyses since then -/

theorem mem_stay :
    c ∈ r.stay id ↔
      c ∈ r.cases ∧ c.document = id ∧ ∃ m, r.openSince? id = some m ∧ m ≤ c.begunAt := by
  unfold stay
  cases r.openSince? id with
  | none => simp
  | some m => simp

theorem stay_of_closed (h : r.get? id = none) : r.stay id = [] := by
  unfold stay
  rw [openSince?_eq_none h]

theorem stay_sorted (r : Run) (id : DocumentId) :
    (r.stay id).Pairwise fun c d => d.begunAt < c.begunAt := by
  unfold stay
  split
  · exact .nil
  · exact r.docket.sorted.filter _

theorem stay_next (h : ((r.next now e).get? id).isSome) :
    (r.next now e).stay id =
      ((r.began? now e).toList.filter fun c => c.document = id) ++
        (r.stay id).map (r.closing e) := by
  have hbegan : ∀ c ∈ (r.began? now e).toList, c.begunAt = r.moment := by
    intro c hc
    obtain ⟨a, remote, -, rfl⟩ := began?_eq_some.mp (Option.mem_toList.mp hc)
    rfl
  unfold stay
  rw [openSince?_next h]
  show List.filter _ ((r.began? now e).toList ++ r.cases.map (r.closing e)) = _
  rw [List.filter_append]
  congr 1
  · refine List.filter_congr fun c hc => ?_
    have hsince : (r.openSince? id).getD r.moment ≤ r.moment := by
      cases ho : r.openSince? id with
      | none => exact Nat.le_refl _
      | some m => exact Nat.le_of_lt (openSince?_lt ho)
    rw [hbegan c hc]
    simp [hsince]
  · rw [List.filter_map]
    congr 1
    cases ho : r.openSince? id with
    | none =>
      -- all that was begun before was begun before the document was opened
      refine List.filter_eq_nil_iff.mpr fun c hc => ?_
      have := r.docket.past c hc
      simp only [Option.getD_none, Function.comp_apply, closing_begunAt, decide_eq_true_eq]
      omega
    | some m =>
      refine List.filter_congr fun c _ => ?_
      simp [Case.document]

/-- The analyses of a document stay as they are when none of them is begun or
concluded. -/
theorem stay_next_of_apart (h : ((r.next now e).get? id).isSome)
    (hbegun : ∀ a remote, begun? (r.next now e).effects = some (a, remote) → a.document ≠ id)
    (hconcluded : ∀ c ∈ r.stay id, ∀ t x, r.watch.concluded? e = some (t, x) →
      c.ticket ≠ some t) :
    (r.next now e).stay id = r.stay id := by
  have hbegan : (r.began? now e).toList.filter (fun c => c.document = id) = [] := by
    rw [List.filter_eq_nil_iff]
    intro c hc
    obtain ⟨a, remote, ha, rfl⟩ := began?_eq_some.mp (Option.mem_toList.mp hc)
    simpa using hbegun a remote ha
  rw [stay_next h, hbegan, List.nil_append]
  exact (List.map_congr_left fun c hc => closing_of_ne (hconcluded c hc)).trans (List.map_id _)

theorem stay_next_of_begun {a : Analysis} {remote : Bool}
    (h : ((r.next now e).get? id).isSome)
    (hbegun : begun? (r.next now e).effects = some (a, remote)) (ha : a.document = id)
    (hevent : r.watch.concluded? e = none) :
    (r.next now e).stay id =
      { analysis := a
        ticket := if remote then some r.watch.queue.nextTicket else none
        begunAt := r.moment
        config := r.watch.store.config } :: r.stay id := by
  have hbegan := began?_eq_some.mpr ⟨a, remote, hbegun, rfl⟩
  rw [stay_next h, hbegan]
  rw [Option.toList_some, List.filter_cons_of_pos (by simpa [Case.document] using ha),
    List.filter_nil, List.singleton_append]
  congr 1
  exact (List.map_congr_left fun c _ => closing_of_none c hevent).trans (List.map_id _)

theorem stay_next_of_concluded (h : ((r.next now e).get? id).isSome)
    (hbegun : begun? (r.next now e).effects = none) :
    (r.next now e).stay id = (r.stay id).map (r.closing e) := by
  have hbegan : r.began? now e = none := by
    unfold began?
    rw [show begun? (r.watch.step now e).2 = none from hbegun]
    rfl
  rw [stay_next h, hbegan]
  rfl

/-! ## Where a result comes from -/

theorem resultFrom?_next (h : ((r.next now e).get? id).isSome) :
    (r.next now e).resultFrom? id =
      if tellsOf id (r.next now e).effects then
        match r.watch.concluded? e with
        | some (t, _) => (r.caseOf? t).map (·.begunAt)
        | none => some r.moment
      else r.resultFrom? id := if_pos h

theorem resultFrom?_next_of_not (h : ((r.next now e).get? id).isSome)
    (htells : tellsOf id (r.next now e).effects = false) :
    (r.next now e).resultFrom? id = r.resultFrom? id := by
  rw [resultFrom?_next h, htells]
  rfl

theorem resultFrom?_next_of_replayed (h : ((r.next now e).get? id).isSome)
    (htells : tellsOf id (r.next now e).effects = true) (hevent : r.watch.concluded? e = none) :
    (r.next now e).resultFrom? id = some r.moment := by
  rw [resultFrom?_next h, if_pos htells, hevent]

theorem resultFrom?_next_of_concluded {t : Nat} {x : Outcome}
    (h : ((r.next now e).get? id).isSome)
    (htells : tellsOf id (r.next now e).effects = true)
    (hevent : r.watch.concluded? e = some (t, x)) (hc : c ∈ r.cases) (ht : c.ticket = some t) :
    (r.next now e).resultFrom? id = some c.begunAt := by
  rw [resultFrom?_next h, if_pos htells, hevent]
  dsimp only
  rw [caseOf?_eq_some hc ht]
  rfl

theorem resultFrom?_lt {r : Run} {m : Nat} (h : r.resultFrom? id = some m) : m < r.moment := by
  induction r generalizing m with
  | start options config now => cases h
  | next r now e ih =>
    show m < r.moment + 1
    unfold resultFrom? at h
    split at h
    · split at h
      · split at h
        · obtain ⟨c, hc, rfl⟩ := Option.map_eq_some_iff.mp h
          have := r.docket.past c (List.mem_of_find?_eq_some hc)
          omega
        · cases h
          exact Nat.lt_succ_self _
      · have := ih h
        omega
    · cases h

end Run

/-! ## What a step means for a document -/

/-- What one step means for one document. -/
inductive Passage (r : Run) (now : Duration) (e : Event) (id : DocumentId) : Prop
  /-- The document is not open now. -/
  | away (hclosed : (r.next now e).get? id = none)
  /-- Nothing happens to it; a call for it may be over when it is of no use. -/
  | kept (d : DocumentEntry) (hopen : r.get? id = some d)
      (hopen' : (r.next now e).get? id = some d)
      (hstay : (r.next now e).stay id = r.stay id)
      (hresult : (r.next now e).resultFrom? id = r.resultFrom? id)
      (hcalls : e.isShutDown = false → r.watch.Awaits id d.fingerprint →
        (r.next now e).watch.Awaits id d.fingerprint ∨ d.inFlight = true)
  /-- It has another text, and a call for it waits. -/
  | edited (content : String) (hnews : r.watch.store.IsNews id (Fingerprint.ofText content))
      (hopen' : (r.next now e).get? id =
        some (DocumentStore.retext id content (r.get? id)))
      (hstay : (r.next now e).stay id = r.stay id)
      (hresult : (r.next now e).resultFrom? id = r.resultFrom? id)
      (hcall : (r.next now e).watch.Awaits id (Fingerprint.ofText content))
  /-- A cached result is about the text that it has, or has now. -/
  | replayed (d : DocumentEntry) (findings : List Finding)
      (hsource : r.get? id = some d ∨
        ∃ content, r.watch.store.IsNews id (Fingerprint.ofText content) ∧
          d = DocumentStore.retext id content (r.get? id))
      (hfree : d.inFlight = false)
      (hopen' : (r.next now e).get? id = some (DocumentStore.answered now findings d))
      (hstay : (r.next now e).stay id = r.stay id)
      (hresult : (r.next now e).resultFrom? id = some r.moment)
  /-- An analysis of its text is begun and queued. -/
  | begun (d : DocumentEntry) (a : Analysis) (hopen : r.get? id = some d)
      (hfree : d.inFlight = false) (ha : IsOf a id d)
      (hopen' : (r.next now e).get? id = some (DocumentStore.engaged d))
      (hevent : r.watch.concluded? e = none)
      (hbegun : begun? (r.next now e).effects = some (a, true))
      (hstay : (r.next now e).stay id =
        { analysis := a, ticket := some r.watch.queue.nextTicket, begunAt := r.moment,
          config := r.watch.store.config } :: r.stay id)
      (hresult : (r.next now e).resultFrom? id = r.resultFrom? id)
  /-- An analysis of its text is begun, and the heuristics answer at once. -/
  | fellBack (d : DocumentEntry) (a : Analysis) (findings : List Finding)
      (hopen : r.get? id = some d) (hfree : d.inFlight = false) (ha : IsOf a id d)
      (hopen' : (r.next now e).get? id =
        some (DocumentStore.answered now findings (DocumentStore.engaged d)))
      (hstay : (r.next now e).stay id =
        { analysis := a, ticket := none, begunAt := r.moment,
          config := r.watch.store.config } :: r.stay id)
      (hresult : (r.next now e).resultFrom? id = some r.moment)
  /-- An analysis of it is concluded with a result that is about its text. -/
  | answered (c : Case) (t : Nat) (x : Outcome) (d : DocumentEntry) (findings : List Finding)
      (hc : c ∈ r.cases) (ht : c.ticket = some t) (hending : c.ending = none)
      (hdocument : c.document = id) (hevent : r.watch.concluded? e = some (t, x))
      (hopen : r.get? id = some d) (htext : d.fingerprint = c.text)
      (hopen' : (r.next now e).get? id = some (DocumentStore.answered now findings d))
      (hstay : (r.next now e).stay id = (r.stay id).map (r.closing e))
      (hresult : (r.next now e).resultFrom? id = some c.begunAt)
  /-- An analysis of it is concluded without any: it ended silently, or is about another
  text. -/
  | lapsed (c : Case) (t : Nat) (x : Outcome) (d : DocumentEntry)
      (hc : c ∈ r.cases) (ht : c.ticket = some t) (hending : c.ending = none)
      (hdocument : c.document = id) (hevent : r.watch.concluded? e = some (t, x))
      (hopen : r.get? id = some d)
      (hwhy : verdict x = .dropped ∨ d.fingerprint ≠ c.text)
      (hsuperseded : x = .error .superseded →
        ∃ b ∈ r.cases, b.document = id ∧ c.begunAt < b.begunAt)
      (hopen' : (r.next now e).get? id = some (DocumentStore.freed c.analysis.seq d))
      (hstay : (r.next now e).stay id = (r.stay id).map (r.closing e))
      (hresult : (r.next now e).resultFrom? id = r.resultFrom? id)
      (hcalls : ∀ fp, r.watch.Awaits id fp → (r.next now e).watch.Awaits id fp)

/-- A step that is not about a document keeps all of it. -/
theorem passage_apart (hentry : (r.next now e).get? id = r.get? id)
    (hbegun : ∀ a remote, begun? (r.next now e).effects = some (a, remote) → a.document ≠ id)
    (hconcluded : ∀ c ∈ r.stay id, ∀ t x, r.watch.concluded? e = some (t, x) →
      c.ticket ≠ some t)
    (htells : tellsOf id (r.next now e).effects = false)
    (hcalls : e.isShutDown = false → ∀ d, r.get? id = some d →
      r.watch.Awaits id d.fingerprint →
      (r.next now e).watch.Awaits id d.fingerprint ∨ d.inFlight = true) :
    Passage r now e id := by
  cases hd : r.get? id with
  | none => exact .away (hentry.trans hd)
  | some d =>
    have hopen : ((r.next now e).get? id).isSome := by
      rw [hentry, hd]
      rfl
    exact .kept d hd (hentry.trans hd) (Run.stay_next_of_apart hopen hbegun hconcluded)
      (Run.resultFrom?_next_of_not hopen htells) fun hup => hcalls hup d hd

/-- A step in which no analysis is begun or concluded and nothing is told. -/
theorem passage_of_tacit (hentry : (r.next now e).get? id = r.get? id)
    (hfx : Tacit (r.next now e).effects) (hevent : r.watch.concluded? e = none)
    (hcalls : e.isShutDown = false → ∀ d, r.get? id = some d →
      r.watch.Awaits id d.fingerprint →
      (r.next now e).watch.Awaits id d.fingerprint ∨ d.inFlight = true) :
    Passage r now e id := by
  refine passage_apart hentry ?_ ?_ (hfx.2 id) hcalls
  · intro a remote ha
    exact absurd ha (hfx.not_begun a remote)
  · intro c _ t x hx
    rw [hevent] at hx
    cases hx

/-- A step that tells of one document only, and begins nothing, is not about another. -/
theorem passage_of_published {other : DocumentId} {findings : List Finding} (ho : id ≠ other)
    (hentry : (r.next now e).get? id = r.get? id)
    (hfx : (r.next now e).effects = [.published other findings])
    (hconcluded : ∀ c ∈ r.stay id, ∀ t x, r.watch.concluded? e = some (t, x) →
      c.ticket ≠ some t)
    (hcalls : ∀ fp, r.watch.Awaits id fp → (r.next now e).watch.Awaits id fp) :
    Passage r now e id := by
  refine passage_apart hentry ?_ hconcluded ?_ fun _ d _ ha => .inl (hcalls _ ha)
  · intro a remote ha
    rw [hfx, begun?_published] at ha
    cases ha
  · rw [hfx, tellsOf_published]
    simpa using ho.symm

theorem not_of_concluded_none (hevent : r.watch.concluded? e = none) :
    ∀ c ∈ r.stay id, ∀ t x, r.watch.concluded? e = some (t, x) → c.ticket ≠ some t := by
  intro c _ t x hx
  rw [hevent] at hx
  cases hx

/-- The cases of a document are not those of another one's analysis. -/
theorem ticket_ne_of_document {o : Owed} {outcome : Outcome} (ho : o ∈ r.watch.owed)
    (hevent : r.watch.concluded? e = some (o.ticket, outcome))
    (hdocument : id ≠ o.analysis.document) :
    ∀ c ∈ r.stay id, ∀ t x, r.watch.concluded? e = some (t, x) → c.ticket ≠ some t := by
  intro c hc t x hx hct
  rw [hevent] at hx
  cases hx
  obtain ⟨hmem, hid, -⟩ := Run.mem_stay.mp hc
  have hanalysis := (r.docket.eq_analysis ho hmem hct).1
  exact hdocument (hid.symm.trans (congrArg Analysis.document hanalysis))

theorem get?_of_reads {s t : DocumentStore} {other : DocumentId} (h : Reads s other t)
    (ho : id ≠ other) : t.get? id = s.get? id := by
  rcases h with rfl | ⟨content, -, rfl⟩
  · rfl
  · exact DocumentStore.get?_upsert_of_ne ho

section Kinds

variable {other : DocumentId} {a : Analysis} {findings : List Finding} {d : DocumentEntry} {o : Owed}
  {outcome : Outcome}

theorem isSome_of_get? (h : r.get? id = some d) : (r.get? id).isSome := by
  rw [h]
  rfl

theorem passage_edited {content : String}
    (hnews : r.watch.store.IsNews other (Fingerprint.ofText content))
    (hstore : (r.next now e).watch.store = (r.watch.store.upsert other content).2)
    (hcall : (r.next now e).watch.Awaits other (Fingerprint.ofText content))
    (hcalls : ∀ id fp, id ≠ other → r.watch.Awaits id fp → (r.next now e).watch.Awaits id fp)
    (hevent : r.watch.concluded? e = none) (hfx : Tacit (r.next now e).effects) :
    Passage r now e id := by
  by_cases ho : id = other
  · subst ho
    have hopen' : (r.next now e).get? id = some (DocumentStore.retext id content (r.get? id)) := by
      unfold Run.get?
      rw [hstore]
      exact DocumentStore.get?_upsert_self hnews
    refine .edited content hnews hopen' ?_ ?_ hcall
    · exact Run.stay_next_of_apart (isSome_of_get? hopen')
        (fun a remote ha => absurd ha (hfx.not_begun a remote)) (not_of_concluded_none hevent)
    · exact Run.resultFrom?_next_of_not (isSome_of_get? hopen') (hfx.2 id)
  · refine passage_of_tacit ?_ hfx hevent fun _ d _ ha => .inl (hcalls id _ ho ha)
    unfold Run.get?
    rw [hstore]
    exact DocumentStore.get?_upsert_of_ne ho

theorem passage_replayed {s : DocumentStore} (hreads : Reads r.watch.store other s)
    (hopen : s.get? other = some d) (hfree : d.inFlight = false)
    (hstore : (r.next now e).watch.store = (s.recordResult now other d.fingerprint findings).2)
    (hcalls : ∀ id fp, id ≠ other → r.watch.Awaits id fp → (r.next now e).watch.Awaits id fp)
    (hevent : r.watch.concluded? e = none)
    (hfx : (r.next now e).effects = [.published other findings]) : Passage r now e id := by
  by_cases ho : id = other
  · subst ho
    have hopen' : (r.next now e).get? id = some (DocumentStore.answered now findings d) := by
      unfold Run.get?
      rw [hstore]
      exact DocumentStore.get?_recordResult_self hopen rfl
    refine .replayed d findings ?_ hfree hopen' ?_ ?_
    · rcases hreads with rfl | ⟨content, hnews, rfl⟩
      · exact .inl hopen
      · rw [DocumentStore.get?_upsert_self hnews] at hopen
        exact .inr ⟨content, hnews, (Option.some.inj hopen).symm⟩
    · refine Run.stay_next_of_apart (isSome_of_get? hopen') ?_ (not_of_concluded_none hevent)
      intro a remote ha
      rw [hfx, begun?_published] at ha
      cases ha
    · refine Run.resultFrom?_next_of_replayed (isSome_of_get? hopen') ?_ hevent
      rw [hfx, tellsOf_published]
      simp
  · refine passage_of_published ho ?_ hfx (not_of_concluded_none hevent)
      fun fp ha => hcalls id fp ho ha
    unfold Run.get?
    rw [hstore, DocumentStore.get?_recordResult_of_ne ho, get?_of_reads hreads ho]

/-- An analysis that is begun of one document is not about another. -/
theorem ne_of_begun (ho : id ≠ other) (ha : a.document = other) {remote : Bool}
    (hbegun : begun? (r.next now e).effects = some (a, remote)) (b : Analysis) (x : Bool)
    (hb : begun? (r.next now e).effects = some (b, x)) : b.document ≠ id := by
  rw [hbegun] at hb
  cases hb
  exact fun hid => ho (hid.symm.trans ha)

theorem passage_begun (hopen : r.watch.store.get? other = some d) (hfree : d.inFlight = false)
    (ha : IsOf a other d)
    (hstore : (r.next now e).watch.store = r.watch.store.modify other DocumentStore.engaged)
    (hcalls : ∀ id fp, id ≠ other → r.watch.Awaits id fp → (r.next now e).watch.Awaits id fp)
    (hevent : r.watch.concluded? e = none)
    (hbegun : begun? (r.next now e).effects = some (a, true))
    (htells : ∀ id, tellsOf id (r.next now e).effects = false) : Passage r now e id := by
  by_cases ho : id = other
  · subst ho
    have hopen' : (r.next now e).get? id = some (DocumentStore.engaged d) := by
      unfold Run.get?
      rw [hstore]
      exact DocumentStore.get?_engaged_self hopen
    exact .begun d a hopen hfree ha hopen' hevent hbegun
      (Run.stay_next_of_begun (isSome_of_get? hopen') hbegun ha.1 hevent)
      (Run.resultFrom?_next_of_not (isSome_of_get? hopen') (htells id))
  · refine passage_apart ?_ (ne_of_begun ho ha.1 hbegun) (not_of_concluded_none hevent)
      (htells id) fun _ d _ ha => .inl (hcalls id _ ho ha)
    unfold Run.get?
    rw [hstore]
    exact DocumentStore.get?_engaged_of_ne ho

theorem passage_fellBack (hopen : r.watch.store.get? other = some d) (hfree : d.inFlight = false)
    (ha : IsOf a other d)
    (hstore : (r.next now e).watch.store =
      ((r.watch.store.modify other DocumentStore.engaged).recordResult now other d.fingerprint
        findings).2)
    (hcalls : ∀ id fp, id ≠ other → r.watch.Awaits id fp → (r.next now e).watch.Awaits id fp)
    (hevent : r.watch.concluded? e = none)
    (hfx : (r.next now e).effects = [.begun a false, .published other findings]) :
    Passage r now e id := by
  have hbegun : begun? (r.next now e).effects = some (a, false) := by
    rw [hfx]
    rfl
  by_cases ho : id = other
  · subst ho
    have hopen' : (r.next now e).get? id =
        some (DocumentStore.answered now findings (DocumentStore.engaged d)) := by
      unfold Run.get?
      rw [hstore]
      exact DocumentStore.get?_recordResult_self (DocumentStore.get?_engaged_self hopen) rfl
    refine .fellBack d a findings hopen hfree ha hopen'
      (Run.stay_next_of_begun (isSome_of_get? hopen') hbegun ha.1 hevent)
      (Run.resultFrom?_next_of_replayed (isSome_of_get? hopen') ?_ hevent)
    rw [hfx, tellsOf_begun, tellsOf_published]
    simp
  · refine passage_apart ?_ (ne_of_begun ho ha.1 hbegun) (not_of_concluded_none hevent) ?_
      fun _ d _ ha => .inl (hcalls id _ ho ha)
    · unfold Run.get?
      rw [hstore, DocumentStore.get?_recordResult_of_ne ho, DocumentStore.get?_engaged_of_ne ho]
    · rw [hfx, tellsOf_begun, tellsOf_published]
      simpa using Ne.symm ho

theorem passage_answered (ho : o ∈ r.watch.owed)
    (hconcluded : r.watch.concluded? e = some (o.ticket, outcome))
    (hopen : r.watch.store.get? o.analysis.document = some d)
    (htext : d.fingerprint = o.analysis.fingerprint)
    (hget : ∀ id, (r.next now e).get? id =
      (r.watch.store.recordResult now o.analysis.document d.fingerprint findings).2.get? id)
    (hcalls : ∀ fp, r.watch.Awaits id fp → (r.next now e).watch.Awaits id fp)
    (hfx : (r.next now e).effects = [.published o.analysis.document findings]) :
    Passage r now e id := by
  by_cases hid : id = o.analysis.document
  · subst hid
    have hopen' : (r.next now e).get? o.analysis.document =
        some (DocumentStore.answered now findings d) :=
      (hget _).trans (DocumentStore.get?_recordResult_self hopen rfl)
    obtain ⟨c, hc, hct, hca, hending⟩ := r.docket.caseOfOwed o ho
    refine .answered c o.ticket outcome d findings hc hct hending
      (congrArg Analysis.document hca) hconcluded hopen
      (htext.trans (congrArg Analysis.fingerprint hca).symm) hopen'
      (Run.stay_next_of_concluded (isSome_of_get? hopen') ?_)
      (Run.resultFrom?_next_of_concluded (isSome_of_get? hopen') ?_ hconcluded hc hct)
    · rw [hfx]
      rfl
    · rw [hfx, tellsOf_published]
      simp
  · exact passage_of_published hid ((hget id).trans (DocumentStore.get?_recordResult_of_ne hid))
      hfx (ticket_ne_of_document ho hconcluded hid) hcalls

theorem passage_lapsed (ho : o ∈ r.watch.owed) (houtcome : o.outcome = some outcome)
    (hconcluded : r.watch.concluded? e = some (o.ticket, outcome))
    (hwhy : verdict outcome = .dropped ∨ ∀ d, r.watch.store.get? o.analysis.document = some d →
      d.fingerprint ≠ o.analysis.fingerprint)
    (hstore : (r.next now e).watch.store =
      (r.watch.store.finishAnalysis o.analysis.document o.analysis.seq).2)
    (hcalls : ∀ fp, r.watch.Awaits id fp → (r.next now e).watch.Awaits id fp)
    (hfx : Tacit (r.next now e).effects) : Passage r now e id := by
  by_cases hid : id = o.analysis.document
  · subst hid
    cases hd : r.get? o.analysis.document with
    | none =>
      refine .away ?_
      unfold Run.get?
      rw [hstore, DocumentStore.get?_finishAnalysis_of_none _ hd]
      exact hd
    | some d =>
      obtain ⟨c, hc, hct, hca, hending⟩ := r.docket.caseOfOwed o ho
      have hopen' : (r.next now e).get? o.analysis.document =
          some (DocumentStore.freed c.analysis.seq d) := by
        unfold Run.get?
        rw [hstore, hca]
        exact DocumentStore.get?_finishAnalysis_self _ hd
      refine .lapsed c o.ticket outcome d hc hct hending (congrArg Analysis.document hca)
        hconcluded hd ?_ ?_ hopen' (Run.stay_next_of_concluded (isSome_of_get? hopen') hfx.1)
        (Run.resultFrom?_next_of_not (isSome_of_get? hopen') (hfx.2 _)) hcalls
      · refine hwhy.imp_right fun hne => ?_
        rw [Case.text, hca]
        exact hne d hd
      · intro hsup
        obtain ⟨b, hb, hbc, hlt⟩ := r.docket.superseded o ho (hsup ▸ houtcome) c hc hct
        exact ⟨b, hb, hbc.trans (congrArg Analysis.document hca), hlt⟩
  · refine passage_apart ?_ ?_ (ticket_ne_of_document ho hconcluded hid) (hfx.2 id)
      fun _ d _ ha => .inl (hcalls _ ha)
    · unfold Run.get?
      rw [hstore]
      exact DocumentStore.get?_finishAnalysis_of_ne _ hid
    · exact fun a remote ha => absurd ha (hfx.not_begun a remote)

theorem passage_closed (hstore : (r.next now e).watch.store = (r.watch.store.remove other).2)
    (hcalls : ∀ id fp, id ≠ other → r.watch.Awaits id fp → (r.next now e).watch.Awaits id fp)
    (hevent : r.watch.concluded? e = none) (hbegun : begun? (r.next now e).effects = none)
    (htells : ∀ id, id ≠ other → tellsOf id (r.next now e).effects = false) :
    Passage r now e id := by
  by_cases ho : id = other
  · subst ho
    refine .away ?_
    unfold Run.get?
    rw [hstore]
    exact DocumentStore.get?_remove_self
  · refine passage_apart ?_ ?_ (not_of_concluded_none hevent) (htells id ho)
      fun _ d _ ha => .inl (hcalls id _ ho ha)
    · unfold Run.get?
      rw [hstore]
      exact DocumentStore.get?_remove_of_ne ho
    · intro a remote ha
      rw [hbegun] at ha
      cases ha

end Kinds

/-- Every step is one of these for every document. -/
theorem passage (r : Run) (now : Duration) (e : Event) (id : DocumentId) :
    Passage r now e id := by
  have hdebounced : (r.next now e).watch.debouncers = r.watch.debouncers →
      ∀ fp, r.watch.Awaits id fp → (r.next now e).watch.Awaits id fp :=
    fun h fp ha => ha.debouncers_eq h
  have hsame : (r.next now e).watch.store = r.watch.store →
      (r.next now e).get? id = r.get? id := by
    intro h
    unfold Run.get?
    rw [h]
  have hconfig : ∀ config, (r.next now e).watch.store = (r.watch.store.setConfig config).2 →
      (r.next now e).get? id = r.get? id := by
    intro config h
    unfold Run.get?
    rw [h, DocumentStore.get?_setConfig]
  cases r.stride now e with
  | still hstore _ _ hcalls hevent _ hfx =>
    exact passage_of_tacit (hsame hstore) hfx hevent fun _ d hd ha => hcalls id d hd ha
  | edited other content hnews hstore _ _ hcall hcalls hevent _ hfx =>
    exact passage_edited hnews hstore hcall hcalls hevent hfx
  | replayed other s d findings hreads hopen hfree _ hstore _ _ hcalls hevent _ hfx =>
    exact passage_replayed hreads hopen hfree hstore hcalls hevent hfx
  | begun other d a hopen hfree ha hstore _ _ hcalls hevent _ hbegun htells =>
    exact passage_begun hopen hfree ha hstore hcalls hevent hbegun htells
  | fellBack other d a findings hopen hfree ha hstore _ _ hcalls hevent _ hfx =>
    exact passage_fellBack hopen hfree ha hstore hcalls hevent hfx
  | turned hstore _ _ hdebouncers hevent _ hfx =>
    exact passage_of_tacit (hsame hstore) hfx hevent
      fun _ d _ ha => .inl (hdebounced hdebouncers _ ha)
  | answered o outcome d findings hfound houtcome hopen htext hstore _ _ hdebouncers hevent hfx =>
    refine passage_answered (List.mem_of_find?_eq_some hfound)
      (hevent ▸ concluded?_completion hfound houtcome) hopen htext (fun other => ?_)
      (hdebounced hdebouncers) hfx
    unfold Run.get?
    rcases hstore with ⟨_, _, _, hstore⟩ | ⟨_, hstore⟩
    · rw [hstore, DocumentStore.get?_setResult]
    · rw [hstore]
  | lapsed o outcome hfound houtcome hwhy hstore _ _ hdebouncers hevent hfx =>
    exact passage_lapsed (List.mem_of_find?_eq_some hfound) houtcome
      (hevent ▸ concluded?_completion hfound houtcome) hwhy hstore (hdebounced hdebouncers) hfx
  | closed other hstore _ _ hcalls hevent hbegun htells =>
    exact passage_closed hstore hcalls (hevent ▸ rfl) hbegun htells
  | reconfigured config hstore _ _ hcalls _ hevent hfx =>
    exact passage_of_tacit (hconfig config hstore) hfx (concluded?_of_isReconfigured hevent)
      fun _ d hd ha => .inl (hcalls id d hd ha)
  | configSet config hstore _ _ hdebouncers hevent hfx =>
    exact passage_of_tacit (hconfig config hstore) (hfx ▸ tacit_nil) (hevent ▸ rfl)
      fun _ d _ ha => .inl (hdebounced hdebouncers _ ha)
  | shutDown hstore _ _ hevent hfx =>
    refine passage_of_tacit (hsame hstore) hfx (hevent ▸ rfl) fun hup => ?_
    rw [hevent] at hup
    cases hup

end Watch

end SmellWatch
