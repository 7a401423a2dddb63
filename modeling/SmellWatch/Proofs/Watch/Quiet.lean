import SmellWatch.Proofs.Watch.Alarms
/-! Analyses come once a document was left alone, or when it is saved.

A run remembers when the text of a document came (`Run.arrival?`), and what has happened
since (`Run.eventsAfter`).  As long as no other settings are adopted, a call that waits was
made when the text of its document came, nothing was done to the document since, and it is
due when the delay has passed (`Run.arrived_of_waits`).  From it follows what
`begun_once_quiet` says: when analyses are begun, that none is begun of a text that is soon
replaced, and that edits of one document do not matter for the call of another. -/

namespace SmellWatch

namespace Watch

variable {now : Duration} {id other : DocumentId} {w w' : Watch} {e : Event} {r : Run}
  {p : Debouncer.Pending Fingerprint}

namespace Run

/-! ## What came, and what happened since -/

/-- The coming of a text. -/
structure Arrival where
  moment : Nat
  time : Duration
  /-- The cache had a result for it. -/
  answered : Bool
deriving DecidableEq, Repr

/-- When the text of an open document came: the last time that it was opened or changed and
got another text. -/
def arrival? (id : DocumentId) : Run → Option Arrival
  | start _ _ _ => none
  | next r now e =>
    if (next r now e).text? id = none then none
    else if e.textOf? = some id ∧ (next r now e).text? id ≠ r.text? id then
      some ⟨r.moment, now, ((next r now e).watch.store.getCached? now id).isSome⟩
    else r.arrival? id

/-- What happened after a moment, the newest first. -/
def eventsAfter (m : Nat) : Run → List Event
  | start _ _ _ => []
  | next r _ e => (if m < r.moment then [e] else []) ++ r.eventsAfter m

/-- No other settings are adopted. -/
def IsSteady : Run → Prop
  | start _ _ _ => True
  | next r _ e => r.IsSteady ∧ e.isReconfigured = false

instance decidableIsSteady : (r : Run) → Decidable r.IsSteady
  | start _ _ _ => isTrue trivial
  | next r _ e =>
    have := decidableIsSteady r
    inferInstanceAs (Decidable (r.IsSteady ∧ e.isReconfigured = false))

/-- The text that came was not answered from the cache, and the document was neither saved nor
closed since; nor was the watch shut down. -/
structure LeavesAlone (r : Run) (id : DocumentId) (x : Arrival) : Prop where
  unanswered : x.answered = false
  undisturbed : ∀ e ∈ r.eventsAfter x.moment, e ≠ .saved id ∧ e ≠ .closed id ∧ e ≠ .shutDown

theorem eventsAfter_of_le {r : Run} {m : Nat} (h : r.moment ≤ m) : r.eventsAfter m = [] := by
  induction r with
  | start options config now => rfl
  | next r now e ih =>
    have hle : r.moment + 1 ≤ m := h
    unfold eventsAfter
    rw [if_neg (by omega), ih (by omega)]
    rfl

theorem eventsAfter_next {m : Nat} (h : m < r.moment) (now : Duration) (e : Event) :
    (r.next now e).eventsAfter m = e :: r.eventsAfter m := by
  conv_lhs => unfold eventsAfter
  rw [if_pos h]
  rfl

theorem mem_eventsAfter_next {m : Nat} {x : Event} (h : x ∈ r.eventsAfter m) (now : Duration)
    (e : Event) : x ∈ (r.next now e).eventsAfter m := List.mem_append_right _ h

theorem arrival?_lt {r : Run} {x : Arrival} (h : r.arrival? id = some x) : x.moment < r.moment := by
  induction r with
  | start options config now => cases h
  | next r now e ih =>
    show x.moment < r.moment + 1
    unfold arrival? at h
    split at h
    · cases h
    · split at h
      · cases h
        exact Nat.lt_succ_self _
      · exact Nat.lt_succ_of_lt (ih h)

/-- A text stays until another one comes or the document is closed. -/
theorem arrival?_next (hopen : (r.next now e).text? id ≠ none)
    (hsame : (r.next now e).text? id = r.text? id) :
    (r.next now e).arrival? id = r.arrival? id := by
  conv_lhs => unfold arrival?
  rw [if_neg hopen, if_neg fun h => h.2 hsame]

theorem IsSteady.rearms {now : Duration} (h : (r.next now e).IsSteady) :
    r.watch.rearms e = false := by
  cases e with
  | reconfigured options config => cases h.2
  | _ => rfl

/-! ## Calls that wait -/

/-- A call that waits was made when the text of its document came, and nothing was done to the
document since. -/
theorem arrived_of_waits {r : Run} (hsteady : r.IsSteady) (h : r.watch.Waits id p) :
    ∃ x, r.arrival? id = some x ∧ r.LeavesAlone id x ∧
      p.due = x.time + r.watch.options.debounce := by
  induction r with
  | start options config now =>
    obtain ⟨x, hx, -⟩ := h
    exact absurd hx List.not_mem_nil
  | next r now e ih =>
    have hopen : (r.next now e).text? id ≠ none := by
      rw [text?_of_pends h.pends]
      exact Option.some_ne_none _
    cases wait h with
    | kept hpast hspares htext _ hdelay =>
      obtain ⟨x, hx, ⟨hunanswered, hundisturbed⟩, hdue⟩ := ih hsteady.1 hpast
      refine ⟨x, (arrival?_next hopen htext).trans hx, ⟨hunanswered, ?_⟩, by rw [hdue, hdelay]⟩
      rw [eventsAfter_next (arrival?_lt hx)]
      intro y hy
      rcases List.mem_cons.mp hy with rfl | hy
      · exact ⟨hspares.saved, hspares.closed, hspares.shutDown⟩
      · exact hundisturbed y hy
    | made hdocument htext hmissed hdue =>
      refine ⟨⟨r.moment, now, false⟩, ?_, ⟨rfl, ?_⟩, hdue⟩
      · unfold arrival?
        rw [if_neg hopen, if_pos ⟨hdocument, htext⟩, hmissed]
        rfl
      · unfold eventsAfter
        rw [if_neg (Nat.lt_irrefl _), eventsAfter_of_le (Nat.le_refl _)]
        exact fun y hy => absurd hy List.not_mem_nil
    | remade hrearms _ => cases hrearms.symm.trans hsteady.rearms

/-- What an analysis that is begun waited for. -/
theorem begun_of_quiet {a : Analysis} {remote : Bool} (hsteady : r.IsSteady)
    (ha : begun? (r.next now e).effects = some (a, remote)) :
    e = .saved a.document ∨
      (∃ timer due, e = .ran (.debounce a.document timer due)) ∧
      ∃ x, r.arrival? a.document = some x ∧ r.LeavesAlone a.document x ∧
        x.time + r.watch.options.debounce ≤ now ∧
        ((r.next now e).IsPunctual → now = x.time + r.watch.options.debounce) := by
  obtain ⟨d, -, -, -, -, hsaved | ⟨hrings, p, hp, -, hdue⟩⟩ := Run.begins ha
  · exact .inl hsaved
  · obtain ⟨x, hx, halone, hpdue⟩ := arrived_of_waits hsteady hp
    refine .inr ⟨hrings, x, hx, halone, hpdue ▸ hdue, fun hpunctual => ?_⟩
    exact hpdue ▸ Nat.le_antisymm (hpunctual.le_due hp) hdue

/-! ## Texts that are soon replaced -/

/-- No analysis of the text of a document was begun since it came. -/
def NoneBegun (r : Run) (id : DocumentId) (x : Arrival) : Prop :=
  ∀ c ∈ r.cases, c.document = id → c.begunAt < x.moment

theorem NoneBegun.next {x : Arrival} (h : r.NoneBegun id x) (hsteady : r.IsSteady)
    (hx : r.arrival? id = some x) (hsoon : now < x.time + r.watch.options.debounce)
    (hunsaved : e ≠ .saved id) : (r.next now e).NoneBegun id x := by
  intro c hc hdocument
  rcases mem_cases_next.mp hc with hnew | ⟨b, hb, rfl⟩
  · obtain ⟨a, remote, ha, rfl⟩ := began?_eq_some.mp hnew
    obtain rfl : a.document = id := hdocument
    rcases begun_of_quiet hsteady ha with hsaved | ⟨-, y, hy, -, hdue, -⟩
    · exact absurd hsaved hunsaved
    · cases hx.symm.trans hy
      exact absurd hsoon (Nat.not_lt.mpr hdue)
  · rw [closing_begunAt]
    exact h b hb ((congrArg Analysis.document (closing_analysis r e b)).symm.trans hdocument)

/-- A text that comes begins no analysis. -/
theorem noneBegun_of_arrives {answered : Bool} (hsteady : r.IsSteady)
    (harrives : e.textOf? = some id) :
    (r.next now e).NoneBegun id ⟨r.moment, now, answered⟩ := by
  intro c hc _
  rcases mem_cases_next.mp hc with hnew | ⟨b, hb, rfl⟩
  · obtain ⟨a, remote, ha, rfl⟩ := began?_eq_some.mp hnew
    rcases begun_of_quiet hsteady ha with rfl | ⟨⟨_, _, rfl⟩, -⟩ <;> cases harrives
  · rw [closing_begunAt]
    exact r.docket.past b hb

/-- Until the delay has passed since a text came, no analysis is begun of it, unless the
document is saved. -/
theorem noneBegun_of_soon {r : Run} {x : Arrival} (hsteady : r.IsSteady) (htimely : r.IsTimely)
    (hx : r.arrival? id = some x) (hsoon : r.clock < x.time + r.watch.options.debounce)
    (hunsaved : ∀ e ∈ r.eventsAfter x.moment, e ≠ .saved id) : r.NoneBegun id x := by
  induction r with
  | start options config now => cases hx
  | next r now e ih =>
    rw [show (r.next now e).watch.options = r.watch.options from
      (sameSettings_step hsteady.2).options] at hsoon
    unfold arrival? at hx
    split at hx
    · cases hx
    · split at hx
      · rename_i harrives
        cases hx
        exact noneBegun_of_arrives hsteady.1 harrives.1
      · have hpast := ih hsteady.1 htimely.1 hx (Nat.lt_of_le_of_lt htimely.2 hsoon)
          fun y hy => hunsaved y (mem_eventsAfter_next hy now e)
        refine hpast.next hsteady.1 hx hsoon (hunsaved e ?_)
        rw [eventsAfter_next (arrival?_lt hx)]
        exact List.mem_cons_self

end Run

/-! ## Edits of other documents -/

/-- What is begun when a call is acted on depends on the document and the settings. -/
theorem begun?_trigger (now : Duration) (id : DocumentId) (w : Watch) :
    begun? (w.trigger now id).2 = ((w.store.get? id).filter fun d => !d.inFlight).map fun d =>
      (w.analysisOf id d, decide (w.refused ≠ some w.store.config)) := by
  cases hd : w.store.get? id with
  | none =>
    rw [trigger_of_busy fun d h => nomatch hd.symm.trans h]
    rfl
  | some d =>
    cases hfree : d.inFlight with
    | true =>
      rw [trigger_of_busy fun d' h => Option.some.inj (hd.symm.trans h) ▸ hfree]
      simp [Option.filter_some, hfree, begun?]
    | false =>
      by_cases hrefused : w.refused = some w.store.config
      · rw [trigger_local now hd hfree hrefused, begun?_begun]
        simp [Option.filter_some, hfree, hrefused]
      · rw [trigger_remote hd hfree hrefused]
        dsimp only
        rw [List.append_assoc, List.cons_append, begun?_begun]
        simp [Option.filter_some, hfree, hrefused]

/-- Two watches are alike in what matters for the call of one document. -/
structure AlikeFor (id : DocumentId) (w w' : Watch) : Prop where
  settings : SameSettings w w'
  refused : w'.refused = w.refused
  config : w'.store.config = w.store.config
  entry : w'.store.get? id = w.store.get? id
  call : w'.debouncer? id = w.debouncer? id

theorem AlikeFor.begun?_trigger (h : AlikeFor id w w') (now : Duration) :
    begun? (w'.trigger now id).2 = begun? (w.trigger now id).2 := by
  rw [Watch.begun?_trigger, Watch.begun?_trigger, h.entry, h.refused, h.config]
  simp only [h.settings.analysisOf_eq]

theorem AlikeFor.setDebouncer (h : AlikeFor id w w') (d : Debouncer Fingerprint) :
    AlikeFor id (w.setDebouncer id d) (w'.setDebouncer id d) := by
  have hself := sameSettings_setDebouncer
  have hterms := sameTerms_setDebouncer
  obtain ⟨hoptions, hservice, hmaxAge, hrates⟩ := h.settings
  refine ⟨⟨?_, ?_, ?_, ?_⟩, ?_, ?_, ?_, ?_⟩
  · rw [(hself w' id d).options, (hself w id d).options, hoptions]
  · rw [(hself w' id d).service, (hself w id d).service, hservice]
  · rw [(hself w' id d).maxAge, (hself w id d).maxAge, hmaxAge]
  · rw [(hself w' id d).rates, (hself w id d).rates, hrates]
  · rw [(hterms w' id d).refused, (hterms w id d).refused, h.refused]
  · rw [setDebouncer_store, setDebouncer_store, h.config]
  · rw [setDebouncer_store, setDebouncer_store, h.entry]
  · rw [debouncer?_setDebouncer_self, debouncer?_setDebouncer_self]

/-- An alarm begins the same in both. -/
theorem AlikeFor.begun?_quiet (h : AlikeFor id w w') (now : Duration) (timer : Debouncer.Timer) :
    begun? (w'.quiet now id timer).2 = begun? (w.quiet now id timer).2 := by
  unfold quiet
  rw [h.call]
  cases w.debouncer? id with
  | none => rfl
  | some d =>
    dsimp only
    split
    · rfl
    · rename_i fp d' _
      have halike := h.setDebouncer d'
      unfold fire
      rw [halike.entry]
      split
      · exact halike.begun?_trigger now
      · rfl

/-- An edit leaves all that matters for the call of another document. -/
theorem alikeFor_update (now : Duration) (content : String) (w : Watch) (h : id ≠ other) :
    AlikeFor id w (w.update now other content).1 := by
  refine ⟨sameSettings_update now other content w, (sameTerms_update now other content w).refused,
    ?_, ?_, ?_⟩
  all_goals
    by_cases hnews : w.store.IsNews other (Fingerprint.ofText content)
    · cases hc : (w.store.upsert other content).2.getCached? now other with
      | none =>
        rw [update_missed hnews hc]
        first
          | rw [schedule_store, DocumentStore.upsert_config]
          | rw [schedule_store, DocumentStore.get?_upsert_of_ne h]
          | exact debouncer?_setDebouncer_of_ne _ _ h
      | some findings =>
        rw [update_cached hnews hc]
        first
          | rw [flushed_store, DocumentStore.recordResult_config, DocumentStore.upsert_config]
          | rw [flushed_store, DocumentStore.get?_recordResult_of_ne h,
              DocumentStore.get?_upsert_of_ne h]
          | exact debouncer?_flushed_of_ne _ h
    · rw [update_same now hnews]

/-! ## All of it -/

/-- As long as no other settings are adopted, an analysis of a document is begun only when it
is saved, or when its text, which the cache did not answer, has been left alone for the
delay.  None is begun of a text that is replaced before, unless the document is saved; and
edits of other documents do not change what comes of its call. -/
theorem begun_once_quiet (r : Run) (now : Duration) (e : Event) (id : DocumentId)
    (hsteady : (r.next now e).IsSteady) :
    (∀ a remote, begun? (r.next now e).effects = some (a, remote) → a.document = id →
      e = .saved id ∨
        ∃ x, r.arrival? id = some x ∧ r.LeavesAlone id x ∧
          x.time + r.watch.options.debounce ≤ now ∧
          ((r.next now e).IsPunctual → now = x.time + r.watch.options.debounce)) ∧
    ((r.next now e).IsTimely → e ≠ .saved id → ∀ x, r.arrival? id = some x →
      now < x.time + r.watch.options.debounce →
      (∀ y ∈ r.eventsAfter x.moment, y ≠ .saved id) → (r.next now e).NoneBegun id x) ∧
    ∀ other, e.textOf? = some other → other ≠ id →
      (r.next now e).watch.debouncer? id = r.watch.debouncer? id ∧
      ∀ later timer due,
        begun? ((r.next now e).next later (.ran (.debounce id timer due))).effects =
          begun? (r.next later (.ran (.debounce id timer due))).effects := by
  refine ⟨?quiet, ?replaced, ?others⟩
  case quiet =>
    rintro a remote ha rfl
    exact (Run.begun_of_quiet hsteady.1 ha).imp_right And.right
  case replaced =>
    intro htimely hunsaved x hx hsoon hpast
    have hnone := Run.noneBegun_of_soon hsteady.1 htimely.1 hx
      (Nat.lt_of_le_of_lt htimely.2 hsoon) hpast
    exact hnone.next hsteady.1 hx hsoon hunsaved
  case others =>
    intro other hdocument hne
    have halike : AlikeFor id r.watch (r.next now e).watch := by
      cases e with
      | opened x content =>
        cases hdocument
        exact alikeFor_update now content r.watch hne.symm
      | changed x content =>
        cases hdocument
        exact alikeFor_update now content r.watch hne.symm
      | _ => cases hdocument
    refine ⟨halike.call, fun later timer due => ?_⟩
    show begun? ((r.next now e).watch.run later _).2 = begun? (r.watch.run later _).2
    unfold run
    dsimp only
    split
    · rfl
    · exact halike.begun?_quiet later timer

/-- A document is opened. -/
def Run.justOpened : Run :=
  (start (.ofConfig {}) ⟨"e76f3a43e0a9ab77"⟩ 0).next 0 (.opened ⟨"a.go"⟩ "x")

theorem begun_once_quiet_justOpened :
    (Run.justOpened.leftAlone ⟨0, 1⟩ (Duration.ofMillis 500)).IsSteady ∧
      ∃ x, Run.justOpened.arrival? ⟨"a.go"⟩ = some x ∧ Run.justOpened.LeavesAlone ⟨"a.go"⟩ x ∧
        Duration.ofMillis 500 = x.time + Run.justOpened.watch.options.debounce := by
  have hsteady : (Run.justOpened.leftAlone ⟨0, 1⟩ (Duration.ofMillis 500)).IsSteady := by decide
  have hpunctual : (Run.justOpened.leftAlone ⟨0, 1⟩ (Duration.ofMillis 500)).IsPunctual := by
    decide +kernel
  have hbegun : (begun? (Run.justOpened.leftAlone ⟨0, 1⟩ (Duration.ofMillis 500)).effects).map
      (·.1.document) = some ⟨"a.go"⟩ := by decide +kernel
  obtain ⟨⟨a, remote⟩, ha, hdocument⟩ := Option.map_eq_some_iff.mp hbegun
  rcases (begun_once_quiet Run.justOpened _ _ ⟨"a.go"⟩ hsteady).1 a remote ha hdocument with
    hsaved | ⟨x, hx, halone, -, hdue⟩
  · cases hsaved
  · exact ⟨hsteady, x, hx, halone, hdue hpunctual⟩

-- Saved before, it is analyzed at once.
example :
    ((begun? (Run.justOpened.next 1 (.saved ⟨"a.go"⟩)).effects).map (·.1.document)) =
      some ⟨"a.go"⟩ := by
  decide +kernel

end Watch

end SmellWatch
