import SmellWatch.Proofs.Watch.Calls
import SmellWatch.Proofs.Watch.Redundancy
import SmellWatch.Proofs.Watch.Telling
/-! A document that is closed is cut off.

Closing a document takes away all that is known of it and all that waits for it, and
leaves what belongs to others (`CutOff`).  From then on, until the editor says a text of it
again, it is away (`Run.IsAway`): it is still (`Stilled`), so the service is not called
for it, whatever was under way, and nothing is told of it but the end of its findings, each
time that it is closed (`closed_is_cut_off`).  After a shutdown everything is still, until
the editor opens, changes or saves a document or other settings are adopted. -/

namespace SmellWatch

namespace Watch

variable {now : Duration} {id : DocumentId} {fp : Fingerprint} {r : Run} {e : Event} {w w' : Watch}
  {findings : List Finding}

/-- An event that may have a call wait for a document, or an analysis begun of it. -/
def Event.stirs : Event → Bool
  | .opened _ _ | .changed _ _ | .saved _ | .reconfigured _ _ => true
  | _ => false

theorem Event.textOf?_of_not_stirs {e : Event} (h : e.stirs = false) : e.textOf? = none := by
  cases e <;> first | rfl | cases h

theorem Event.isReconfigured_of_not_stirs {e : Event} (h : e.stirs = false) :
    e.isReconfigured = false := by
  cases e <;> first | rfl | cases h

namespace Run

/-- A document was closed, and the editor has not said a text of it since. -/
def IsAway (id : DocumentId) : Run → Prop
  | start _ _ _ => False
  | next r _ e => e = .closed id ∨ (r.IsAway id ∧ e.textOf? ≠ some id)

/-- The watch was shut down, and nothing has stirred it since. -/
def IsDown : Run → Prop
  | start _ _ _ => False
  | next r _ e => e = .shutDown ∨ (r.IsDown ∧ e.stirs = false)

/-- Nothing was told of a document while it was away. -/
def Hushed (id : DocumentId) : Run → Prop
  | start _ _ _ => True
  | next r now e =>
    r.Hushed id ∧ (r.IsAway id → e.textOf? ≠ some id →
      ∀ findings, (id, findings) ∉ (next r now e).told)

end Run

/-! ## Closing -/

/-- What closing a document leaves. -/
structure CutOff (w : Watch) (id : DocumentId) (w' : Watch) : Prop where
  entry : w'.store.get? id = none
  entries : ∀ other, other ≠ id → w'.store.get? other = w.store.get? other
  cache : w'.store.cache = w.store.cache.filter (·.key.document ≠ id)
  call : w'.debouncer? id = none
  calls : ∀ other, other ≠ id → w'.debouncer? other = w.debouncer? other
  /-- The requests of other documents wait as before. -/
  waiting : w'.queue.waiting = w.queue.waiting.filter (·.key ≠ id)
  /-- A request of the document that runs is told to stop; one of another runs on. -/
  running : w'.queue.running = w.queue.running.map fun x =>
    if x.key = id then { x with canceled := true } else x

theorem cutOff_close (now : Duration) (id : DocumentId) (w : Watch) :
    CutOff w id (w.close now id).1 where
  entry := DocumentStore.get?_remove_self
  entries := fun _ ho => DocumentStore.get?_remove_of_ne ho
  cache := rfl
  call := by
    show (w.dropDebouncers (· = id)).debouncer? id = none
    rw [debouncer?_dropDebouncers]
    simp
  calls := by
    intro other ho
    show (w.dropDebouncers (· = id)).debouncer? other = w.debouncer? other
    rw [debouncer?_dropDebouncers]
    simp [ho]
  waiting := by
    show w.queue.waiting.filter (fun x => !decide (x.key = id)) = _
    simp
  running := by
    show w.queue.running.map (fun x => if decide (x.key = id) then { x with canceled := true }
      else x) = _
    simp

/-! ## Nothing under way that could call -/

/-- No request for a document waits, and one that runs was told to stop. -/
structure Stilled (w : Watch) (id : DocumentId) : Prop where
  noneWaits : ∀ x ∈ w.queue.waiting, x.key ≠ id
  stops : ∀ x, w.queue.running = some x → x.key = id → x.canceled = true

theorem stilled_of_cancelWhere (wanted : DocumentId → Bool) (hid : wanted id = true)
    (hqueue : w'.queue = (w.queue.cancelWhere wanted).queue) : Stilled w' id where
  noneWaits := by
    intro x hx hkey
    rw [hqueue] at hx
    have hnot := (List.mem_filter.mp hx).2
    rw [hkey, hid] at hnot
    cases hnot
  stops := by
    intro x hx hkey
    rw [hqueue] at hx
    obtain ⟨y, -, rfl⟩ := Option.map_eq_some_iff.mp hx
    by_cases hy : wanted y.key = true
    · rw [if_pos hy]
    · rw [if_neg hy] at hkey
      exact absurd (hkey ▸ hid) hy

/-- A document that is still stays so while no analysis of it is queued. -/
theorem Stilled.next (h : Stilled r.watch id)
    (hbegun : ∀ a, begun? (r.next now e).effects = some (a, true) → a.document ≠ id) :
    Stilled (r.next now e).watch id where
  noneWaits := by
    intro x hx
    cases (r.stride now e).booking r.accounts.orderly with
    | settled settled hqueue _ _ _ _ _ => exact h.noneWaits x (hqueue.waits x hx)
    | queued a hqueue _ _ hnew _ =>
      rw [hqueue, RequestQueue.enqueue_queue] at hx
      rcases List.mem_append.mp hx with hx | hx
      · exact h.noneWaits x (List.mem_filter.mp hx).1
      · rw [List.mem_singleton.mp hx]
        exact hbegun a hnew
    | completed _ _ _ _ hqueue _ _ _ => exact h.noneWaits x (hqueue ▸ hx)
  stops := by
    intro x hx hkey
    cases work_step now e r.watch with
    | goesOn hruns _ =>
      obtain ⟨y, hy, -, -, hsame, hstops⟩ := hruns x hx
      exact hstops (h.stops y hy (hsame.trans hkey))
    | ends _ _ _ _ _ _ hqueue _ _ =>
      rw [show (r.next now e).watch.queue = _ from hqueue] at hx
      obtain ⟨y, hy, rfl⟩ := Option.map_eq_some_iff.mp hx
      exact h.stops y hy hkey
    | turns now' hqueue _ _ =>
      rw [show (r.next now e).watch.queue = _ from hqueue] at hx
      rcases RequestQueue.turn_running r.accounts.orderly now' hx with
        ⟨-, hran⟩ | ⟨y, hy, -, -, -, hsame⟩
      · exact h.stops x hran hkey
      · exact absurd (hsame.symm.trans hkey) (h.noneWaits y hy)

/-- The service is not called for a document that is still. -/
theorem Stilled.not_called (h : Stilled r.watch id) {t : Nat} {a : Analysis}
    (hcall : (t, a) ∈ (r.next now e).called) : a.document ≠ id := by
  intro hdocument
  obtain ⟨⟨x, hx, -, hgoes⟩, p, hp⟩ := called_step hcall
  have hkey := r.keyed_running x a p hx hp
  rw [h.stops x hx (hkey.symm.trans hdocument)] at hgoes
  cases hgoes

/-! ## Documents that are away -/

/-- The text of a document goes when it is closed, and changes only when the editor says
another one. -/
theorem text?_next_of_not_said (r : Run) (now : Duration) (hsaid : e.textOf? ≠ some id) :
    (r.next now e).text? id = r.text? id ∨ e = .closed id := by
  unfold Run.text?
  cases r.stride now e with
  | still hstore => exact .inl (by rw [hstore])
  | edited doc content _ hstore _ _ _ _ _ _ _ _ _ _ hdocument =>
    have hne : id ≠ doc := fun h => hsaid (h ▸ hdocument)
    exact .inl (by rw [hstore, DocumentStore.text?_upsert_of_ne hne])
  | replayed doc s d gs hreads _ _ _ hstore _ _ _ _ _ _ _ _ hdocument =>
    refine .inl ?_
    rw [hstore, DocumentStore.text?_recordResult]
    rcases hdocument with rfl | hdocument
    · rfl
    · have hne : id ≠ doc := fun h => hsaid (h ▸ hdocument)
      unfold DocumentStore.text?
      rw [get?_of_reads hreads hne]
  | begun _ _ _ _ _ _ hstore => exact .inl (by rw [hstore, DocumentStore.text?_engaged])
  | fellBack _ _ _ _ _ _ _ hstore =>
    exact .inl (by rw [hstore, DocumentStore.text?_recordResult, DocumentStore.text?_engaged])
  | turned hstore => exact .inl (by rw [hstore])
  | answered _ _ _ _ _ _ _ _ hstore => exact .inl ((TakesIn.of_completed hstore).text?_eq id)
  | lapsed _ _ _ _ _ hstore => exact .inl (by rw [hstore, DocumentStore.text?_finishAnalysis])
  | closed doc hstore _ _ _ hevent =>
    by_cases hid : id = doc
    · exact .inr (hid ▸ hevent)
    · exact .inl (by rw [hstore, DocumentStore.text?_remove_of_ne hid])
  | reconfigured _ hstore => exact .inl (by rw [hstore, DocumentStore.text?_setConfig])
  | configSet _ hstore => exact .inl (by rw [hstore, DocumentStore.text?_setConfig])
  | shutDown hstore => exact .inl (by rw [hstore])

/-- A document that is away has no text and is still. -/
theorem Run.IsAway.stilled {r : Run} (h : r.IsAway id) :
    r.text? id = none ∧ Stilled r.watch id := by
  induction r with
  | start options config now => exact h.elim
  | next r now e ih =>
    have hclosed : e = .closed id →
        (r.next now e).text? id = none ∧ Stilled (r.next now e).watch id := by
      rintro rfl
      exact ⟨DocumentStore.text?_remove_self,
        stilled_of_cancelWhere (· = id) (by simp) (w := r.watch) rfl⟩
    rcases h with h | ⟨h, hsaid⟩
    · exact hclosed h
    · obtain ⟨htext, hstilled⟩ := ih h
      rcases text?_next_of_not_said r now hsaid with hsame | hevent
      · refine ⟨hsame.trans htext, hstilled.next fun a ha hdocument => ?_⟩
        obtain ⟨d, hopen, -⟩ := Run.begins ha
        have hsome : r.text? a.document = some d.fingerprint := DocumentStore.text?_of_get? hopen
        rw [hdocument, htext] at hsome
        cases hsome
      · exact hclosed hevent

/-- While a document is away, closing it is all that tells of it. -/
theorem Run.IsAway.mem_told_iff (h : r.IsAway id) (hsaid : e.textOf? ≠ some id) :
    (id, findings) ∈ (r.next now e).told ↔ e = .closed id ∧ findings = [] := by
  have hnext : (r.next now e).IsAway id := .inr ⟨h, hsaid⟩
  constructor
  · intro hin
    cases telling r now e with
    | silent htold _ =>
      rw [htold] at hin
      exact absurd hin List.not_mem_nil
    | recorded doc gs d htold hopen _ =>
      rw [htold] at hin
      cases List.mem_singleton.mp hin
      have hsome := DocumentStore.text?_of_get? hopen
      rw [show (r.next now e).watch.store.text? id = none from hnext.stilled.1] at hsome
      cases hsome
    | closed doc hevent htold _ _ =>
      rw [htold] at hin
      cases List.mem_singleton.mp hin
      exact ⟨hevent, rfl⟩
  · rintro ⟨rfl, rfl⟩
    rw [told_of_closed]
    exact List.mem_singleton_self _

/-! ## After a shutdown -/

/-- No call comes to wait unless something stirs the watch. -/
theorem not_pends_next (h : ∀ id fp, ¬ r.watch.Pends id fp) (hstirs : e.stirs = false) :
    ∀ id fp, ¬ (r.next now e).watch.Pends id fp := by
  intro id fp hp
  cases r.stride now e with
  | still _ _ _ _ _ _ _ hback => exact h id fp (hback id fp hp)
  | edited _ _ _ _ _ _ _ _ _ _ _ _ _ _ hdocument =>
    rw [Event.textOf?_of_not_stirs hstirs] at hdocument
    cases hdocument
  | replayed _ _ _ _ _ _ _ _ _ _ _ _ _ _ _ hback => exact h id fp (hback id fp hp).2
  | begun _ _ _ _ _ _ _ _ _ _ _ _ _ _ hback => exact h id fp (hback id fp hp).2
  | fellBack _ _ _ _ _ _ _ _ _ _ _ _ _ _ hback => exact h id fp (hback id fp hp).2
  | turned _ _ _ hdebouncers => exact h id fp (hp.debouncers_eq hdebouncers.symm)
  | answered _ _ _ _ _ _ _ _ _ _ _ hdebouncers =>
    exact h id fp (hp.debouncers_eq hdebouncers.symm)
  | lapsed _ _ _ _ _ _ _ _ hdebouncers => exact h id fp (hp.debouncers_eq hdebouncers.symm)
  | closed _ _ _ _ _ _ _ _ hback => exact h id fp (hback id fp hp).2
  | reconfigured _ _ _ _ _ _ hevent =>
    rw [Event.isReconfigured_of_not_stirs hstirs] at hevent
    cases hevent
  | configSet _ _ _ _ hdebouncers => exact h id fp (hp.debouncers_eq hdebouncers.symm)
  | shutDown _ _ _ _ _ hback => exact hback id fp hp

/-- After a shutdown no call waits, and every document is still. -/
theorem Run.IsDown.stilled {r : Run} (h : r.IsDown) :
    (∀ id fp, ¬ r.watch.Pends id fp) ∧ ∀ id, Stilled r.watch id := by
  induction r with
  | start options config now => exact h.elim
  | next r now e ih =>
    rcases h with rfl | ⟨h, hstirs⟩
    · refine ⟨?_, fun id => stilled_of_cancelWhere (fun _ => true) rfl (w := r.watch) rfl⟩
      rintro id fp ⟨x, p, hx, -, hp, -⟩
      obtain ⟨y, -, rfl⟩ := List.mem_map.mp (show x ∈ r.watch.debouncers.map _ from hx)
      cases hp
    · obtain ⟨hcalls, hstilled⟩ := ih h
      refine ⟨not_pends_next hcalls hstirs, fun id => (hstilled id).next fun a ha => ?_⟩
      obtain ⟨d, -, -, -, -, rfl | ⟨-, hdue⟩⟩ := Run.begins ha
      · cases hstirs
      · exact absurd hdue.pends (hcalls _ _)

/-! ## All of it -/

/-- Closing a document cuts it off.  While it is away the service is not called for it, and
all that is told of it is that it has no findings, each time that it is closed.  After a
shutdown the service is not called at all, until something has stirred the watch. -/
theorem closed_is_cut_off (r : Run) (now : Duration) (id : DocumentId) :
    CutOff r.watch id (r.next now (.closed id)).watch ∧
    (r.next now (.closed id)).told = [(id, [])] ∧
    (r.IsAway id → ∀ e : Event,
      (∀ t a, (t, a) ∈ (r.next now e).called → a.document ≠ id) ∧
      (e.textOf? ≠ some id → ∀ findings,
        (id, findings) ∈ (r.next now e).told ↔ e = .closed id ∧ findings = [])) ∧
    (r.IsDown → ∀ e : Event, (r.next now e).called = []) := by
  refine ⟨cutOff_close now id r.watch, told_of_closed r now id, fun haway e => ?_,
    fun hdown e => ?_⟩
  · exact ⟨fun t a hcall => haway.stilled.2.not_called hcall,
      fun hsaid findings => haway.mem_told_iff hsaid⟩
  · rw [List.eq_nil_iff_forall_not_mem]
    rintro ⟨t, a⟩ hcall
    exact (hdown.stilled.2 a.document).not_called hcall rfl

/-- The service fails, and the document is closed before it is asked again. -/
def Run.closedAtRest : Run :=
  asking.after
    [(Duration.ofMillis 800, .answered 0 (.returned (.error .timeout))),
      (Duration.ofMillis 900, .closed ⟨"a.go"⟩)]

theorem closed_is_cut_off_closedAtRest :
    (∀ t a, (t, a) ∈ (Run.closedAtRest.next (Duration.ofSeconds 2) (.ran (.work 0))).called →
      a.document ≠ ⟨"a.go"⟩) ∧
    ((Run.asking.next (Duration.ofMillis 900) .shutDown).next (Duration.ofSeconds 2)
      (.ran .worker)).called = [] := by
  constructor
  · have haway : Run.closedAtRest.IsAway ⟨"a.go"⟩ := .inl rfl
    exact ((closed_is_cut_off _ _ _).2.2.1 haway _).1
  · have hdown : (Run.asking.next (Duration.ofMillis 900) .shutDown).IsDown := .inl rfl
    exact (closed_is_cut_off _ _ ⟨"a.go"⟩).2.2.2 hdown _

-- Left open, the service is asked again.
example :
    ((Run.asking.after [(Duration.ofMillis 800, .answered 0 (.returned (.error .timeout)))]).next
      (Duration.ofSeconds 2) (.ran (.work 0))).called.map (·.1) = [0] := by
  decide +kernel

/-- A document is opened, and closed twice. -/
def Run.closedTwice : Run :=
  (start (.ofConfig {}) ⟨"e76f3a43e0a9ab77"⟩ 0).after
    [(0, .opened ⟨"a.go"⟩ "x"), (0, .closed ⟨"a.go"⟩), (0, .closed ⟨"a.go"⟩)]

/-- The end of the findings of a document is told once more when it is closed again. -/
theorem not_hushed_closedTwice : ¬ Run.closedTwice.Hushed ⟨"a.go"⟩ := by
  rintro ⟨-, h⟩
  refine h (.inl rfl) (by decide) [] ?_
  rw [told_of_closed]
  exact List.mem_singleton_self _

end Watch

end SmellWatch
