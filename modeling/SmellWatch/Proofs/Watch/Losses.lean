import SmellWatch.Proofs.Watch.Attention
import SmellWatch.Proofs.Watch.Causes
import SmellWatch.Proofs.Watch.Debouncers
import SmellWatch.Proofs.Watch.Reconfiguration
/-! Documents that are submitted, and of which nobody hears.

While the editor only opens and saves documents, the watch is up, keeps its settings and keeps
what was opened open (`Run.OnlySubmits`).  So when nothing is outstanding, a document of which
nothing was told is lost (`isLost_of_idle`): its last analysis had waited for too long, or the
service said that the call was canceled.  In a run that takes no longer than a request may
wait, none waits for too long (`not_wasLate`). -/

namespace SmellWatch

namespace Watch

variable {now : Duration} {id : DocumentId} {r : Run} {e : Event}

/-! ## Runs in which documents are only submitted -/

/-- A document is opened or saved. -/
def Event.submits : Event → Bool
  | .opened _ _ | .saved _ => true
  | _ => false

theorem Event.not_cancels_of_submits {e : Event} (h : e.submits = true) : e.cancels = false := by
  cases e <;> first | rfl | cases h

namespace Run

/-- The editor has opened and saved documents, and done nothing else. -/
def OnlySubmits (r : Run) : Prop := ∀ e ∈ r.deeds, e.submits = true

theorem onlySubmits_next :
    (r.next now e).OnlySubmits ↔ r.OnlySubmits ∧ (e.isOfEditor = true → e.submits = true) := by
  unfold OnlySubmits
  simp only [mem_deeds_next, or_imp, forall_and, and_imp]
  exact and_congr_right fun _ => ⟨fun h he => h e he rfl, fun h x he hx => hx ▸ h he⟩

namespace OnlySubmits

theorem isUp {r : Run} (h : r.OnlySubmits) : r.IsUp := by
  induction r with
  | start options config now => trivial
  | next r now e ih =>
    obtain ⟨hpast, he⟩ := onlySubmits_next.mp h
    refine ⟨ih hpast, ?_⟩
    cases e <;> first | rfl | cases he rfl

theorem not_wasCanceled (h : r.OnlySubmits) : ¬ r.WasCanceled := by
  rintro ⟨e, he, hcancels⟩
  rw [Event.not_cancels_of_submits (h e he)] at hcancels
  cases hcancels

theorem adopted_eq {r : Run} (h : r.OnlySubmits) : r.adopted = (r.asOf 0).adopted := by
  induction r with
  | start options config now => rfl
  | next r now e ih =>
    obtain ⟨hpast, he⟩ := onlySubmits_next.mp h
    rw [asOf_next _ _ (Nat.zero_le _), ← ih hpast]
    cases e <;> first | rfl | cases he rfl

/-- What was opened is open. -/
theorem isOpen {r : Run} (h : r.OnlySubmits) (hin : ∃ e ∈ r.deeds, e.textOf? = some id) :
    r.text? id ≠ none := by
  induction r with
  | start options config now =>
    obtain ⟨e, he, -⟩ := hin
    exact absurd he List.not_mem_nil
  | next r now e ih =>
    obtain ⟨hpast, he⟩ := onlySubmits_next.mp h
    obtain ⟨x, hx, hsaid⟩ := hin
    rcases mem_deeds_next.mp hx with hx | ⟨-, rfl⟩
    · refine isOpen_next (ih hpast ⟨x, hx, hsaid⟩) now ?_
      rintro rfl
      cases he rfl
    · exact text?_next_of_said r now hsaid

end OnlySubmits

end Run

/-! ## Requests that wait -/

theorem outset_le_clock {r : Run} (h : r.IsTimely) : (r.asOf 0).clock ≤ r.clock := by
  induction r with
  | start options config now => exact Nat.le_refl _
  | next r now e ih =>
    rw [Run.asOf_next _ _ (Nat.zero_le _)]
    exact Nat.le_trans (ih h.1) h.2

/-- No request waits since before the run began. -/
theorem outset_le_since {r : Run} (h : r.IsTimely) :
    ∀ x ∈ r.watch.queue.waiting, (r.asOf 0).clock ≤ x.since := by
  induction r with
  | start options config now => exact fun _ hx => absurd hx List.not_mem_nil
  | next r now e ih =>
    intro x hx
    rw [Run.asOf_next _ _ (Nat.zero_le _)]
    cases (r.stride now e).booking r.accounts.orderly with
    | settled settled hqueue _ _ _ _ _ => exact ih h.1 x (hqueue.waits x hx)
    | queued a hqueue _ _ _ _ =>
      rw [hqueue, RequestQueue.enqueue_queue] at hx
      rcases List.mem_append.mp hx with hx | hx
      · exact ih h.1 x (List.mem_filter.mp hx).1
      · rw [List.mem_singleton.mp hx]
        exact Nat.le_trans (outset_le_clock h.1) h.2
    | completed _ _ _ _ hqueue _ _ _ => exact ih h.1 x (hqueue ▸ hx)

/-- In a run that takes no longer than a request may wait, none waits for too long. -/
theorem not_wasLate {r : Run} (h : r.OnlySubmits) (htimely : r.IsTimely)
    (hclock : r.clock ≤ (r.asOf 0).clock + (r.asOf 0).adopted.maxQueueAge) (t : Nat) :
    ¬ r.WasLate t := by
  induction r with
  | start options config now => exact id
  | next r now e ih =>
    have hpast := (Run.onlySubmits_next.mp h).1
    rw [Run.asOf_next _ _ (Nat.zero_le _)] at hclock
    rintro (hlate | ⟨x, hx, -, hold⟩)
    · exact ih hpast htimely.1 (Nat.le_trans htimely.2 hclock) hlate
    · have hage : r.watch.queue.maxAge < now - x.since := of_decide_eq_true hold
      rw [r.inForce.maxAge, hpast.adopted_eq] at hage
      have hwaited : now - x.since ≤ (r.asOf 0).adopted.maxQueueAge :=
        Nat.le_trans (Nat.sub_le_sub_left (outset_le_since htimely.1 x hx) now)
          (Nat.sub_le_iff_le_add'.mpr hclock)
      exact Nat.not_lt.mpr hwaited hage

/-! ## Documents of which nobody hears -/

/-- The result of an open document was told. -/
theorem told_of_resultFrom? {r : Run} {m : Nat} (h : r.resultFrom? id = some m) :
    ∃ p ∈ r.tidings, p.1 = id := by
  induction r with
  | start options config now => cases h
  | next r now e ih =>
    rw [tidings_next]
    unfold Run.resultFrom? at h
    split at h
    · split at h
      · rename_i htells
        obtain ⟨x, hx, htells⟩ := List.any_eq_true.mp htells
        cases x with
        | published doc findings =>
          have hdoc : doc = id := by simpa [Effect.tellsOf] using htells
          refine ⟨(doc, findings), List.mem_append_left _ (List.mem_reverse.mpr ?_), hdoc⟩
          exact mem_told.mpr hx
        | _ => cases htells
      · obtain ⟨p, hp, hid⟩ := ih h
        exact ⟨p, List.mem_append_right _ hp, hid⟩
    · cases h

/-- An analysis was given up: it had waited for too long, or the service said that the call
was canceled. -/
def Run.GaveUp (r : Run) (c : Case) : Prop :=
  ∃ x, c.ending = some x ∧
    (x.outcome = .error .timedOut ∧ (∃ t, c.ticket = some t ∧ r.WasLate t) ∨
      x.outcome = .error (.failed .canceled) ∧ ⟨c.analysis, .error .canceled⟩ ∈ r.answers)

/-- Nothing was told of a document, and the last analysis of it was given up. -/
def Run.IsLost (r : Run) (id : DocumentId) : Prop :=
  (∀ p ∈ r.tidings, p.1 ≠ id) ∧ ∃ c l, r.stay id = c :: l ∧ r.GaveUp c

theorem gaveUp_of_endedSilently {c : Case} (hc : c ∈ r.cases) (hcanceled : ¬ r.WasCanceled)
    (h : c.EndedSilently) : r.GaveUp c := by
  obtain ⟨x, hx, houtcome⟩ := h
  obtain ⟨t, ht, hexplains⟩ := r.explains_of_ending c hc x hx
  refine ⟨x, hx, ?_⟩
  rcases houtcome with houtcome | houtcome | houtcome
  · rw [houtcome] at hexplains
    exact .inl ⟨houtcome, t, ht, hexplains⟩
  · rw [houtcome] at hexplains
    exact absurd hexplains hcanceled
  · rw [houtcome] at hexplains
    exact .inr ⟨houtcome, Or.resolve_left hexplains hcanceled⟩

/-- When nothing is outstanding, a document that was opened and of which nothing was told is
lost. -/
theorem isLost_of_idle (h : r.OnlySubmits) (hidle : r.watch.IsIdle)
    (hin : ∃ e ∈ r.deeds, e.textOf? = some id) (huntold : ∀ p ∈ r.tidings, p.1 ≠ id) :
    r.IsLost id := by
  obtain ⟨fp, hfp⟩ := Option.ne_none_iff_exists'.mp (h.isOpen hin)
  obtain ⟨d, hopen, -⟩ := Option.map_eq_some_iff.mp hfp
  rcases ((r.heeded h.isUp).attended d hopen).of_idle hidle with
    ⟨-, m, hm, -⟩ | ⟨c, l, hstay, -, -, hend⟩ | ⟨c, -, -, hold, -⟩
  · obtain ⟨p, hp, hid⟩ := told_of_resultFrom? hm
    exact absurd hid (huntold p hp)
  · have hc : c ∈ r.cases := (Run.mem_stay.mp (hstay ▸ List.mem_cons_self)).1
    exact ⟨huntold, c, l, hstay, gaveUp_of_endedSilently hc h.not_wasCanceled hend⟩
  · exact absurd hold (Nat.not_lt_zero _)

end Watch

end SmellWatch
