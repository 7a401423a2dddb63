import SmellWatch.Proofs.Watch.Alarms
import SmellWatch.Proofs.Watch.Parting
/-! What the debouncers of a watch are kept for.

A debouncer comes when a text comes for which the cache has nothing, or when other settings
make an open document wait anew; and it goes when its document is closed, or when the delay
changes (`mem_debouncers_step`).  So each is kept for a document that is open, in every run
(`Run.text?_of_debouncer`).  It has the delay that is in force, and its call is for the text
that the document has; so a call that is acted on begins an analysis of this text, if none is
under way (`debouncers_current`). -/

namespace SmellWatch

namespace Watch

variable {now : Duration} {id : DocumentId} {fp : Fingerprint} {w : Watch} {e : Event} {r : Run}
  {x : DocumentId × Debouncer Fingerprint}

/-! ## Open documents -/

/-- The document whose text the editor says is open then. -/
theorem text?_update (now : Duration) (id : DocumentId) (content : String) (w : Watch) :
    (w.update now id content).1.store.text? id = some (Fingerprint.ofText content) := by
  by_cases hnews : w.store.IsNews id (Fingerprint.ofText content)
  · cases hc : (w.store.upsert id content).2.getCached? now id with
    | none =>
      rw [update_missed hnews hc, schedule_store]
      exact DocumentStore.text?_upsert_self hnews
    | some findings =>
      rw [update_cached hnews hc, flushed_store, DocumentStore.text?_recordResult]
      exact DocumentStore.text?_upsert_self hnews
  · rw [update_same now hnews]
    unfold DocumentStore.IsNews at hnews
    push Not at hnews
    obtain ⟨d, hd, hsame⟩ := hnews
    rw [DocumentStore.text?_of_get? hd, hsame]

theorem text?_next_of_said (r : Run) (now : Duration) (hsaid : e.textOf? = some id) :
    (r.next now e).text? id ≠ none := by
  have hupdate : ∀ content, (r.watch.update now id content).1.store.text? id ≠ none :=
    fun content => by
      rw [text?_update]
      exact Option.some_ne_none _
  cases e with
  | opened doc content =>
    cases hsaid
    exact hupdate content
  | changed doc content =>
    cases hsaid
    exact hupdate content
  | _ => cases hsaid

/-- An open document stays open until it is closed. -/
theorem isOpen_next (hopen : r.text? id ≠ none) (now : Duration) (hclosed : e ≠ .closed id) :
    (r.next now e).text? id ≠ none := by
  by_cases hsaid : e.textOf? = some id
  · exact text?_next_of_said r now hsaid
  · rw [(text?_next_of_not_said r now hsaid).resolve_right hclosed]
    exact hopen

/-! ## Debouncers, step by step -/

/-- A document has a debouncer. -/
def HasDebouncer (w : Watch) (id : DocumentId) : Prop := ∃ x ∈ w.debouncers, x.1 = id

theorem hasDebouncer_of_mem (hx : x ∈ w.debouncers) : w.HasDebouncer x.1 := ⟨x, hx, rfl⟩

/-- When a call is taken away its debouncer stays. -/
theorem hasDebouncer_of_flushed (hx : x ∈ (w.flushed id).debouncers) : w.HasDebouncer x.1 := by
  rcases mem_flushed hx with ⟨d, hd, rfl⟩ | ⟨-, hx⟩
  · exact ⟨(id, d), hd, rfl⟩
  · exact hasDebouncer_of_mem hx

theorem mem_debouncers_update {content : String}
    (hx : x ∈ (w.update now id content).1.debouncers) : w.HasDebouncer x.1 ∨ x.1 = id := by
  by_cases hnews : w.store.IsNews id (Fingerprint.ofText content)
  · cases hc : (w.store.upsert id content).2.getCached? now id with
    | none =>
      rw [update_missed hnews hc] at hx
      rcases mem_setDebouncer hx with rfl | ⟨-, hx⟩
      · exact .inr rfl
      · exact .inl (hasDebouncer_of_mem hx)
    | some findings =>
      rw [update_cached hnews hc] at hx
      have hpast := hasDebouncer_of_flushed hx
      exact .inl hpast
  · rw [update_same now hnews] at hx
    exact .inl (hasDebouncer_of_mem hx)

theorem mem_debouncers_quiet {timer : Debouncer.Timer}
    (hx : x ∈ (w.quiet now id timer).1.debouncers) : w.HasDebouncer x.1 := by
  unfold quiet at hx
  split at hx
  · exact hasDebouncer_of_mem hx
  · rename_i d hd
    split at hx
    · exact hasDebouncer_of_mem hx
    · rw [(inert_fire now id _ _).debouncers] at hx
      rcases mem_setDebouncer hx with rfl | ⟨-, hx⟩
      · exact ⟨(id, d), mem_of_debouncer? hd, rfl⟩
      · exact hasDebouncer_of_mem hx

theorem mem_debouncers_reconfigure {options : WatchOptions} {config : Fingerprint}
    (hdelays : w.Delays) (hx : x ∈ (w.reconfigure now options config).1.debouncers) :
    w.HasDebouncer x.1 ∨ ∃ d, w.store.get? x.1 = some d := by
  have hadopted : (w.adopting now options config).Delays := by
    intro y hy
    obtain ⟨hy, hd⟩ := mem_adopting hy
    exact (hdelays y hy).trans hd
  rw [reconfigure_eq] at hx
  rcases mem_scheduleAll hadopted hx with ⟨hx, -⟩ | ⟨-, -, d, hd, -⟩
  · exact .inl (hasDebouncer_of_mem (mem_adopting hx).1)
  · exact .inr ⟨d, (DocumentStore.get?_setConfig w.store config x.1).symm.trans hd⟩

/-- Where a debouncer comes from: its document had one and is not closed, or its text has
come, or it is open and other settings were adopted. -/
theorem mem_debouncers_step (hdelays : w.Delays) (hx : x ∈ (w.step now e).1.debouncers) :
    (w.HasDebouncer x.1 ∧ e ≠ .closed x.1) ∨ e.textOf? = some x.1 ∨
      e.isReconfigured = true ∧ ∃ d, w.store.get? x.1 = some d := by
  cases e with
  | opened id content =>
    rcases mem_debouncers_update hx with hx | rfl
    · exact .inl ⟨hx, nofun⟩
    · exact .inr (.inl rfl)
  | changed id content =>
    rcases mem_debouncers_update hx with hx | rfl
    · exact .inl ⟨hx, nofun⟩
    · exact .inr (.inl rfl)
  | saved id =>
    rw [show (w.step now (.saved id)).1.debouncers = (w.flushed id).debouncers from
      (inert_save now id w).debouncers] at hx
    exact .inl ⟨hasDebouncer_of_flushed hx, nofun⟩
  | closed id =>
    obtain ⟨hx, hkept⟩ := List.mem_filter.mp (show x ∈ w.debouncers.filter _ from hx)
    refine .inl ⟨hasDebouncer_of_mem hx, fun h => ?_⟩
    simp [Event.closed.inj h] at hkept
  | reconfigured options config =>
    rcases mem_debouncers_reconfigure hdelays hx with hx | hopen
    · exact .inl ⟨hx, nofun⟩
    · exact .inr (.inr ⟨rfl, hopen⟩)
  | configSet config => exact .inl ⟨hasDebouncer_of_mem hx, nofun⟩
  | shutDown =>
    obtain ⟨y, hy, rfl⟩ := List.mem_map.mp (show x ∈ w.debouncers.map _ from hx)
    exact .inl ⟨⟨y, hy, rfl⟩, nofun⟩
  | ran t =>
    refine .inl ⟨?_, nofun⟩
    cases t with
    | debounce id timer due =>
      unfold step run at hx
      dsimp only at hx
      split at hx
      · exact hasDebouncer_of_mem hx
      · exact mem_debouncers_quiet hx
    | worker => exact hasDebouncer_of_mem ((inert_takeTurn now w).debouncers ▸ hx)
    | work ticket => exact hasDebouncer_of_mem ((inert_goOn now ticket w).debouncers ▸ hx)
    | completion ticket => exact hasDebouncer_of_mem ((inert_complete now ticket w).debouncers ▸ hx)
  | answered ticket reply =>
    exact .inl ⟨hasDebouncer_of_mem ((inert_answered now ticket reply w).debouncers ▸ hx), nofun⟩

/-- A document that has a debouncer is open. -/
theorem Run.text?_of_debouncer {r : Run} (h : r.watch.HasDebouncer id) : r.text? id ≠ none := by
  induction r with
  | start options config now =>
    obtain ⟨x, hx, -⟩ := h
    exact absurd hx List.not_mem_nil
  | next r now e ih =>
    obtain ⟨x, hx, rfl⟩ := h
    rcases mem_debouncers_step r.delays hx with ⟨hpast, hclosed⟩ | hsaid | ⟨hreconfigured, d, hd⟩
    · exact isOpen_next (ih hpast) now hclosed
    · exact text?_next_of_said r now hsaid
    · refine isOpen_next ?_ now fun h => nomatch h ▸ hreconfigured
      unfold Run.text?
      rw [DocumentStore.text?_of_get? hd]
      exact Option.some_ne_none _

/-! ## All of it -/

/-- A call that is taken from the debouncer of a document to be acted on is for the text that
the document has. -/
theorem Run.get?_of_taken {d : Debouncer Fingerprint} {p : Debouncer.Pending Fingerprint}
    (hd : r.watch.debouncer? id = some d) (hp : d.pending = some p) :
    ∃ x, r.get? id = some x ∧ x.fingerprint = p.value :=
  DocumentStore.get?_of_text? (Run.text?_of_pends (waits_of_debouncer? hd hp).pends)

/-- Every debouncer is kept for an open document, with the delay that is in force, and its
call is for the text that the document has.  So whenever a call is acted on, because its alarm
rings or because the document is saved, its document is open and has the text that it is for,
and an analysis of this text is triggered. -/
theorem debouncers_current (r : Run) :
    (∀ x ∈ r.watch.debouncers, x.2.delay = r.watch.options.debounce ∧
      ∃ d, r.get? x.1 = some d ∧ ∀ p, x.2.pending = some p → p.value = d.fingerprint) ∧
    (∀ now id timer due d fp d', r.watch.debouncer? id = some d →
      d.ring now timer = (some fp, d') → due ≤ now →
      (∃ x, r.get? id = some x ∧ x.fingerprint = fp) ∧
        r.watch.step now (.ran (.debounce id timer due)) =
          (r.watch.setDebouncer id d').trigger now id) ∧
    ∀ now id d fp d', r.watch.debouncer? id = some d → d.flush = (some fp, d') →
      (∃ x, r.get? id = some x ∧ x.fingerprint = fp) ∧
        r.watch.step now (.saved id) = (r.watch.setDebouncer id d').trigger now id := by
  refine ⟨fun x hx => ⟨r.delays x hx, ?_⟩, ?alarm, ?save⟩
  · obtain ⟨fp, hfp⟩ := Option.ne_none_iff_exists'.mp
      (Run.text?_of_debouncer (hasDebouncer_of_mem hx))
    obtain ⟨d, hd, rfl⟩ := DocumentStore.get?_of_text? hfp
    refine ⟨d, hd, fun p hp => ?_⟩
    exact Option.some.inj ((Run.text?_of_pends ⟨x, p, hx, rfl, hp, rfl⟩).symm.trans hfp)
  case alarm =>
    intro now id timer due d fp d' hd hring hdue
    obtain ⟨p, hp, rfl, -⟩ := Debouncer.taken_of_ring hring
    obtain ⟨x, hx, hfp⟩ := Run.get?_of_taken hd hp
    refine ⟨⟨x, hx, hfp⟩, ?_⟩
    show r.watch.run now (.debounce id timer due) = _
    unfold run quiet
    dsimp only
    rw [if_neg (Nat.not_lt.mpr hdue), hd]
    dsimp only
    rw [hring]
    exact fire_of_text ((congrArg (·.get? id) (setDebouncer_store _ _ _)).trans hx) hfp
  case save =>
    intro now id d fp d' hd hflush
    obtain ⟨hvalue, hrest⟩ := Prod.mk.inj hflush
    obtain ⟨p, hp, rfl⟩ := Option.map_eq_some_iff.mp hvalue
    obtain ⟨x, hx, hfp⟩ := Run.get?_of_taken hd hp
    refine ⟨⟨x, hx, hfp⟩, ?_⟩
    show r.watch.save now id = _
    unfold save
    rw [hd, Option.map_some, hflush]
    exact fire_of_text ((congrArg (·.get? id) (setDebouncer_store _ _ _)).trans hx) hfp

end Watch

end SmellWatch
