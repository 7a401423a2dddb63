import SmellWatch.Proofs.Watch.Debouncers
import SmellWatch.Proofs.Watch.Freshness
import SmellWatch.Proofs.Watch.Quiet
import SmellWatch.Proofs.Watch.Stay
/-! To save a document is to ask for its analysis now.

A save returns early in four cases.  A call that waited is for the text as it is
(`Run.get?_of_taken`), so it does begin an analysis; and an entry that says that an analysis is
under way has one (`Run.owner`).  So after a save a document has a result for its text or an
analysis of it under way, whichever way the save went (`Serves`). -/

namespace SmellWatch

namespace Watch

variable {now : Duration} {id : DocumentId} {w : Watch} {d : DocumentEntry} {r : Run}

/-- What is done for a document that is open, after the call for it was taken away. -/
inductive Serves (now : Duration) (id : DocumentId) (d : DocumentEntry) (w : Watch) :
    Watch × List Effect → Prop
  /-- There is nothing to do. -/
  | settled (h : d.hasCurrentResult = true ∨ d.inFlight = true) : Serves now id d w (w, [])
  | replayed (findings : List Finding) (hcached : w.store.getCached? now id = some findings) :
      Serves now id d w
        ({ w with store := (w.store.recordResult now id d.fingerprint findings).2 },
          [.published id findings])
  /-- The heuristics answer at once. -/
  | fellBack (findings : List Finding) :
      Serves now id d w
        ({ w with store := ((w.store.modify id DocumentStore.engaged).recordResult now id
            d.fingerprint findings).2 },
          [.begun (w.analysisOf id d) false, .published id findings])
  /-- An analysis is queued. -/
  | asked (w' : Watch) (fx : List Effect)
      (hstore : w'.store = w.store.modify id DocumentStore.engaged) (hfx : Tacit fx) :
      Serves now id d w (w', .begun (w.analysisOf id d) true :: fx)

theorem serves_trigger (now : Duration) (hopen : w.store.get? id = some d) :
    Serves now id d w (w.trigger now id) := by
  cases hflight : d.inFlight with
  | true =>
    rw [trigger_of_busy fun d' hd' => Option.some.inj (hopen.symm.trans hd') ▸ hflight]
    exact .settled (.inr hflight)
  | false =>
    by_cases hrefused : w.refused = some w.store.config
    · rw [trigger_local now hopen hflight hrefused]
      exact .fellBack _
    · rw [trigger_remote hopen hflight hrefused]
      dsimp only
      rw [List.append_assoc, List.cons_append]
      refine .asked _ _ rfl ((tacit_wakes _).append (Tacit.append ?_ (tacit_wake _)))
      split
      · exact tacit_wake .worker
      · exact tacit_nil

/-- A call that waits is for the text of its document. -/
def CallIsCurrent (w : Watch) (id : DocumentId) (d : DocumentEntry) : Prop :=
  ∀ p, (w.debouncer? id).bind (·.pending) = some p → d.fingerprint = p.value

theorem serves_save (now : Duration) (hopen : w.store.get? id = some d)
    (hcall : w.CallIsCurrent id d) : Serves now id d (w.flushed id) (w.save now id) := by
  have hopen : (w.flushed id).store.get? id = some d := by
    rw [flushed_store]
    exact hopen
  rw [save_eq]
  cases hp : (w.debouncer? id).bind (·.pending) with
  | some p =>
    dsimp only
    rw [fire_of_text hopen (hcall p hp)]
    exact serves_trigger now hopen
  | none =>
    rw [hopen]
    dsimp only
    split
    · rename_i hdone
      exact .settled (Bool.or_eq_true_iff.mp hdone)
    · cases hcached : (w.flushed id).store.getCached? now id with
      | none =>
        rw [deliverCached_of_none hcached]
        exact serves_trigger now hopen
      | some findings =>
        rw [deliverCached_of_some hopen hcached]
        exact .replayed findings hcached

/-! ## What comes of it -/

namespace Serves

variable {x : Watch × List Effect}

/-- The document has its text still, and a result for it or an analysis of it. -/
theorem entry (h : Serves now id d w x) (hopen : w.store.get? id = some d) :
    ∃ d', x.1.store.get? id = some d' ∧ d'.fingerprint = d.fingerprint ∧
      d'.content = d.content ∧ (d'.hasCurrentResult = true ∨ d'.inFlight = true) := by
  have hcurrent : ∀ findings, (DocumentStore.answered now findings d).hasCurrentResult = true :=
    fun findings => beq_self_eq_true (some d.fingerprint)
  cases h with
  | settled hdone => exact ⟨d, hopen, rfl, rfl, hdone⟩
  | replayed findings _ =>
    exact ⟨_, DocumentStore.get?_recordResult_self hopen rfl, rfl, rfl, .inl (hcurrent findings)⟩
  | fellBack findings =>
    exact ⟨_, DocumentStore.get?_recordResult_self (DocumentStore.get?_engaged_self hopen) rfl,
      rfl, rfl, .inl (hcurrent findings)⟩
  | asked w' fx hstore _ =>
    have hengaged : w'.store.get? id = some (DocumentStore.engaged d) :=
      hstore.symm ▸ DocumentStore.get?_engaged_self hopen
    exact ⟨_, hengaged, rfl, rfl, .inr rfl⟩

theorem begun_le (h : Serves now id d w x) :
    x.2.filterMap Effect.begun? = [] ∨
      ∃ remote, x.2.filterMap Effect.begun? = [(w.analysisOf id d, remote)] := by
  cases h with
  | settled _ => exact .inl rfl
  | replayed findings _ => exact .inl rfl
  | fellBack findings => exact .inr ⟨false, rfl⟩
  | asked w' fx _ hfx =>
    have hnone : fx.filterMap Effect.begun? = [] :=
      List.filterMap_eq_nil_iff.mpr (List.findSome?_eq_none_iff.mp hfx.1)
    exact .inr ⟨true, congrArg ((w.analysisOf id d, true) :: ·) hnone⟩

theorem told_le (h : Serves now id d w x) :
    x.2.filterMap Effect.told? = [] ∨
      ∃ findings, x.2.filterMap Effect.told? = [(id, findings)] := by
  cases h with
  | settled _ => exact .inl rfl
  | replayed findings _ => exact .inr ⟨findings, rfl⟩
  | fellBack findings => exact .inr ⟨findings, rfl⟩
  | asked w' fx _ hfx =>
    refine .inl (List.filterMap_eq_nil_iff.mpr fun e he => ?_)
    rcases List.mem_cons.mp he with rfl | he
    · rfl
    · cases e with
      | published other findings => exact absurd he (hfx.not_published other findings)
      | _ => rfl

end Serves

/-! ## Saves in a run -/

theorem Run.callIsCurrent (hopen : r.get? id = some d) : r.watch.CallIsCurrent id d := by
  intro p hp
  obtain ⟨b, hb, hp⟩ := Option.bind_eq_some_iff.mp hp
  obtain ⟨d', hd', hfp⟩ := Run.get?_of_taken hb hp
  cases hopen.symm.trans hd'
  exact hfp

theorem Run.serves_saved (hopen : r.get? id = some d) (now : Duration) :
    Serves now id d (r.watch.flushed id)
      ((r.next now (.saved id)).watch, (r.next now (.saved id)).effects) :=
  serves_save now hopen (Run.callIsCurrent hopen)

/-- When an open document is saved, no call waits for it afterwards; it has a result for its
text, or an analysis of this text waits in the queue, runs, or waits for its completion.  One
analysis is begun at most, and it is of this text; findings are published once at most, and for
this document. -/
theorem attends_to_saved (r : Run) (id : DocumentId) (d : DocumentEntry)
    (hopen : r.get? id = some d) (now : Duration) :
    (∀ x ∈ (r.next now (.saved id)).watch.debouncers, x.1 = id → x.2.isPending = false) ∧
    (∃ d', (r.next now (.saved id)).get? id = some d' ∧ d'.fingerprint = d.fingerprint ∧
      d'.content = d.content ∧ (d'.hasCurrentResult = true ∨
        ∃ c ∈ (r.next now (.saved id)).stay id, c.text = d'.fingerprint ∧
          c.IsUnderWay (r.next now (.saved id)).watch)) ∧
    ((r.next now (.saved id)).effects.filterMap Effect.begun? = [] ∨
      ∃ a remote, (r.next now (.saved id)).effects.filterMap Effect.begun? = [(a, remote)] ∧
        a.document = id ∧ a.fingerprint = d.fingerprint ∧ a.content = d.content) ∧
    ((r.next now (.saved id)).told = [] ∨
      ∃ findings, (r.next now (.saved id)).told = [(id, findings)]) := by
  have hserves := Run.serves_saved hopen now
  refine ⟨fun x hx hid => ?_, ?_, hserves.begun_le.imp_right ?_, hserves.told_le⟩
  · rw [show (r.next now (.saved id)).watch.debouncers = (r.watch.flushed id).debouncers from
      (inert_save now id r.watch).debouncers] at hx
    rcases mem_flushed hx with ⟨b, -, rfl⟩ | ⟨hne, -⟩
    · rfl
    · exact absurd hid hne
  · obtain ⟨d', hopen', hfp, hcontent, hdone⟩ :=
      hserves.entry ((flushed_store r.watch id).symm ▸ hopen)
    refine ⟨d', hopen', hfp, hcontent, hdone.imp_right fun hflight => ?_⟩
    obtain ⟨c, rest, hstay, htext, -, hisOpen⟩ :=
      (r.next now (.saved id)).owner id d' hopen' hflight
    have hmem : c ∈ (r.next now (.saved id)).stay id := hstay ▸ List.mem_cons_self
    exact ⟨c, hmem, htext, (Run.isUnderWay_iff (Run.mem_stay.mp hmem).1).mpr hisOpen⟩
  · rintro ⟨remote, hbegun⟩
    exact ⟨_, remote, hbegun, rfl, rfl, rfl⟩

theorem attends_to_saved_justOpened :
    ∃ d, Run.justOpened.get? ⟨"a.go"⟩ = some d ∧
      ∃ d', (Run.justOpened.next 1 (.saved ⟨"a.go"⟩)).get? ⟨"a.go"⟩ = some d' ∧
        d'.fingerprint = d.fingerprint ∧ (d'.hasCurrentResult = true ∨
          ∃ c ∈ (Run.justOpened.next 1 (.saved ⟨"a.go"⟩)).stay ⟨"a.go"⟩, c.text = d'.fingerprint ∧
            c.IsUnderWay (Run.justOpened.next 1 (.saved ⟨"a.go"⟩)).watch) := by
  have hsome : (Run.justOpened.get? ⟨"a.go"⟩).isSome = true := by decide +kernel
  obtain ⟨d, hopen⟩ := Option.isSome_iff_exists.mp hsome
  obtain ⟨-, ⟨d', hopen', hfp, -, hdone⟩, -⟩ :=
    attends_to_saved Run.justOpened ⟨"a.go"⟩ d hopen 1
  exact ⟨d, hopen, d', hopen', hfp, hdone⟩

end Watch

end SmellWatch
