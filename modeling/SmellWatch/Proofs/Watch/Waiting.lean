import SmellWatch.Proofs.Watch.Terms
/-! The calls that wait in a watch for documents to be left alone.

`Pends` speaks of all debouncers that are kept, `Awaits` of the one that is found for a
document; `IsDue` and `Asks` say when a call, or an event, wants an analysis.  Each of them is
followed through what is done to debouncers: one is put in its place, some are dropped, or the
call for a document is taken away (`flushed`). -/

namespace SmellWatch

namespace Watch

variable {now : Duration} {id other : DocumentId} {fp : Fingerprint}

/-- A call for a document waits, made for a text of this fingerprint. -/
def Awaits (w : Watch) (id : DocumentId) (fp : Fingerprint) : Prop :=
  ∃ d p, w.debouncer? id = some d ∧ d.pending = some p ∧ p.value = fp

/-- Of the calls that are kept for a document, one was made for a text of this
fingerprint. -/
def Pends (w : Watch) (id : DocumentId) (fp : Fingerprint) : Prop :=
  ∃ x p, x ∈ w.debouncers ∧ x.1 = id ∧ x.2.pending = some p ∧ p.value = fp

/-- A call is kept for a document. -/
def Waits (w : Watch) (id : DocumentId) (p : Debouncer.Pending Fingerprint) : Prop :=
  ∃ x ∈ w.debouncers, x.1 = id ∧ x.2.pending = some p

/-- A call for a document that was made for a text of this fingerprint has waited for long
enough. -/
def IsDue (w : Watch) (now : Duration) (id : DocumentId) (fp : Fingerprint) : Prop :=
  ∃ p, w.Waits id p ∧ p.value = fp ∧ p.due ≤ now

/-- An event asks for an analysis of a document with a text of this fingerprint: it is saved,
or the alarm of a call rings that is due. -/
def Asks (w : Watch) (now : Duration) (e : Event) (id : DocumentId) (fp : Fingerprint) : Prop :=
  e = .saved id ∨
    (∃ timer due, e = .ran (.debounce id timer due)) ∧ w.IsDue now id fp

theorem Waits.pends {w : Watch} {p : Debouncer.Pending Fingerprint} (h : w.Waits id p) :
    w.Pends id p.value := by
  obtain ⟨x, hx, hid, hp⟩ := h
  exact ⟨x, p, hx, hid, hp, rfl⟩

theorem IsDue.pends {w : Watch} (h : w.IsDue now id fp) : w.Pends id fp := by
  obtain ⟨p, hp, rfl, -⟩ := h
  exact hp.pends

theorem find?_put (l : List (DocumentId × Debouncer Fingerprint)) (id other : DocumentId)
    (d : Debouncer Fingerprint) :
    (l.map fun p => if p.1 = id then (id, d) else p).find? (·.1 = other) =
      (l.find? (·.1 = other)).map fun p => if other = id then (id, d) else p := by
  induction l with
  | nil => rfl
  | cons x r ih =>
    simp only [List.map_cons, List.find?_cons]
    by_cases hx : x.1 = id
    · by_cases ho : id = other
      · simp [hx, ho]
      · simp only [hx, if_true, ho, decide_false]
        exact ih
    · by_cases ho : x.1 = other
      · have hne : ¬ other = id := fun h => hx (ho.trans h)
        simp [ho, hne]
      · simp only [hx, if_false, ho, decide_false]
        exact ih

theorem debouncer?_setDebouncer_self (w : Watch) (id : DocumentId) (d : Debouncer Fingerprint) :
    (w.setDebouncer id d).debouncer? id = some d := by
  unfold setDebouncer
  split
  · rename_i h
    obtain ⟨x, hx⟩ := Option.isSome_iff_exists.mp h
    unfold debouncer? at hx ⊢
    simp only [find?_put]
    cases hf : w.debouncers.find? (·.1 = id) with
    | none => rw [hf] at hx; cases hx
    | some p => simp
  · rename_i h
    have hnone : w.debouncers.find? (·.1 = id) = none := by
      unfold debouncer? at h
      cases hf : w.debouncers.find? (·.1 = id) with
      | none => rfl
      | some p => rw [hf] at h; simp at h
    unfold debouncer?
    simp [List.find?_append, hnone]

theorem debouncer?_setDebouncer_of_ne (w : Watch) (d : Debouncer Fingerprint) (h : other ≠ id) :
    (w.setDebouncer id d).debouncer? other = w.debouncer? other := by
  unfold setDebouncer
  split
  · unfold debouncer?
    simp only [find?_put, h, if_false]
    simp
  · unfold debouncer?
    simp [List.find?_append, Ne.symm h]

@[simp] theorem setDebouncer_store (w : Watch) (id : DocumentId) (d : Debouncer Fingerprint) :
    (w.setDebouncer id d).store = w.store := by
  unfold setDebouncer
  split <;> rfl

@[simp] theorem setDebouncer_queue (w : Watch) (id : DocumentId) (d : Debouncer Fingerprint) :
    (w.setDebouncer id d).queue = w.queue := by
  unfold setDebouncer
  split <;> rfl

@[simp] theorem setDebouncer_owed (w : Watch) (id : DocumentId) (d : Debouncer Fingerprint) :
    (w.setDebouncer id d).owed = w.owed := by
  unfold setDebouncer
  split <;> rfl

theorem awaits_setDebouncer_of_ne (w : Watch) (d : Debouncer Fingerprint) (h : other ≠ id) :
    (w.setDebouncer id d).Awaits other fp ↔ w.Awaits other fp := by
  unfold Awaits
  rw [debouncer?_setDebouncer_of_ne w d h]

/-- One call waits for a document at most. -/
theorem Awaits.eq {w : Watch} {x : Fingerprint} (h : w.Awaits id fp) (k : w.Awaits id x) :
    fp = x := by
  obtain ⟨d, p, hd, hp, rfl⟩ := h
  obtain ⟨d', p', hd', hp', rfl⟩ := k
  rw [hd] at hd'
  cases hd'
  rw [hp] at hp'
  cases hp'
  rfl

theorem mem_of_debouncer? {w : Watch} {d : Debouncer Fingerprint} (h : w.debouncer? id = some d) :
    (id, d) ∈ w.debouncers := by
  obtain ⟨x, hx, rfl⟩ := Option.map_eq_some_iff.mp h
  obtain rfl : x.1 = id := by simpa using List.find?_some hx
  exact List.mem_of_find?_eq_some hx

theorem waits_of_debouncer? {w : Watch} {d : Debouncer Fingerprint}
    {p : Debouncer.Pending Fingerprint} (h : w.debouncer? id = some d) (hp : d.pending = some p) :
    w.Waits id p := ⟨_, mem_of_debouncer? h, rfl, hp⟩

theorem Awaits.pends {w : Watch} (h : w.Awaits id fp) : w.Pends id fp := by
  obtain ⟨d, p, hd, hp, rfl⟩ := h
  exact (waits_of_debouncer? hd hp).pends

theorem Pends.debouncers_eq {w w' : Watch} (h : w.Pends id fp)
    (he : w'.debouncers = w.debouncers) : w'.Pends id fp := by
  unfold Pends at h ⊢
  rw [he]
  exact h

theorem ne_of_debouncer?_none {w : Watch} (h : w.debouncer? id = none)
    {x : DocumentId × Debouncer Fingerprint} (hx : x ∈ w.debouncers) : x.1 ≠ id := by
  unfold debouncer? at h
  rw [Option.map_eq_none_iff, List.find?_eq_none] at h
  simpa using h x hx

/-- A debouncer comes in the place of the one that a document has; the others stay. -/
theorem mem_setDebouncer {w : Watch} {d : Debouncer Fingerprint}
    {x : DocumentId × Debouncer Fingerprint} (h : x ∈ (w.setDebouncer id d).debouncers) :
    x = (id, d) ∨ (x.1 ≠ id ∧ x ∈ w.debouncers) := by
  unfold setDebouncer at h
  split at h
  · obtain ⟨y, hy, rfl⟩ := List.mem_map.mp h
    by_cases hid : y.1 = id
    · exact .inl (if_pos hid)
    · rw [if_neg hid]
      exact .inr ⟨hid, hy⟩
  · rename_i hnone
    rcases List.mem_append.mp h with h | h
    · exact .inr ⟨ne_of_debouncer?_none (by simpa using hnone) h, h⟩
    · exact .inl (List.mem_singleton.mp h)

theorem pends_of_setDebouncer {w : Watch} {d : Debouncer Fingerprint}
    (h : (w.setDebouncer id d).Pends other fp) :
    (other = id ∧ ∃ p, d.pending = some p ∧ p.value = fp) ∨ (other ≠ id ∧ w.Pends other fp) := by
  obtain ⟨x, p, hx, rfl, hp, hfp⟩ := h
  rcases mem_setDebouncer hx with rfl | ⟨hne, hx⟩
  · exact .inl ⟨rfl, p, hp, hfp⟩
  · exact .inr ⟨hne, x, p, hx, rfl, hp, hfp⟩

/-- When the call for a document is taken away, the others stay. -/
theorem pends_of_taken {w : Watch} {d : Debouncer Fingerprint} (hd : d.pending = none)
    (h : (w.setDebouncer id d).Pends other fp) : other ≠ id ∧ w.Pends other fp := by
  rcases pends_of_setDebouncer h with ⟨-, p, hp, -⟩ | hrest
  · rw [hd] at hp
    cases hp
  · exact hrest

theorem pends_of_dropDebouncers {w : Watch} {gone : DocumentId → Bool}
    (h : (w.dropDebouncers gone).Pends id fp) : gone id = false ∧ w.Pends id fp := by
  obtain ⟨x, p, hx, rfl, hp, hfp⟩ := h
  obtain ⟨hx, hg⟩ := List.mem_filter.mp hx
  exact ⟨by simpa using hg, x, p, hx, rfl, hp, hfp⟩

theorem Awaits.debouncers_eq {w w' : Watch} (h : w.Awaits id fp)
    (he : w'.debouncers = w.debouncers) : w'.Awaits id fp := by
  unfold Awaits debouncer? at h ⊢
  rw [he]
  exact h

theorem debouncer?_dropDebouncers (w : Watch) (gone : DocumentId → Bool) (id : DocumentId) :
    (w.dropDebouncers gone).debouncer? id = if gone id then none else w.debouncer? id := by
  unfold dropDebouncers debouncer?
  simp only [List.find?_filter]
  cases hg : gone id with
  | true =>
    have hnone : ∀ l : List (DocumentId × Debouncer Fingerprint),
        l.find? (fun p => !gone p.1 && decide (p.1 = id)) = none := by
      intro l
      rw [List.find?_eq_none]
      intro p _ hp
      simp only [Bool.and_eq_true, Bool.not_eq_true', decide_eq_true_eq] at hp
      rw [hp.2, hg] at hp
      cases hp.1
    simp [hnone]
  | false =>
    have hsame : ∀ p : DocumentId × Debouncer Fingerprint,
        (!gone p.1 && decide (p.1 = id)) = decide (p.1 = id) := by
      intro p
      by_cases hp : p.1 = id
      · simp [hp, hg]
      · simp [hp]
    simp [hsame]

theorem awaits_dropDebouncers {w : Watch} {gone : DocumentId → Bool} (h : gone id = false) :
    (w.dropDebouncers gone).Awaits id fp ↔ w.Awaits id fp := by
  unfold Awaits
  rw [debouncer?_dropDebouncers, h]
  simp

/-- The watch after the call for a document was taken away. -/
def flushed (w : Watch) (id : DocumentId) : Watch :=
  match w.debouncer? id with
  | some d => w.setDebouncer id d.disarm
  | none => w

@[simp] theorem flushed_store (w : Watch) (id : DocumentId) : (w.flushed id).store = w.store := by
  unfold flushed
  split
  · exact setDebouncer_store _ _ _
  · rfl

@[simp] theorem flushed_queue (w : Watch) (id : DocumentId) : (w.flushed id).queue = w.queue := by
  unfold flushed
  split
  · exact setDebouncer_queue _ _ _
  · rfl

@[simp] theorem flushed_owed (w : Watch) (id : DocumentId) : (w.flushed id).owed = w.owed := by
  unfold flushed
  split
  · exact setDebouncer_owed _ _ _
  · rfl

theorem sameTerms_flushed (w : Watch) (id : DocumentId) : SameTerms w (w.flushed id) := by
  unfold flushed
  split
  · exact sameTerms_setDebouncer w id _
  · exact .refl w

theorem debouncer?_flushed_of_ne (w : Watch) (h : other ≠ id) :
    (w.flushed id).debouncer? other = w.debouncer? other := by
  unfold flushed
  split
  · exact debouncer?_setDebouncer_of_ne w _ h
  · rfl

theorem awaits_flushed_of_ne (w : Watch) (h : other ≠ id) :
    (w.flushed id).Awaits other fp ↔ w.Awaits other fp := by
  unfold Awaits
  rw [debouncer?_flushed_of_ne w h]

/-- No call waits for a document whose call was taken away; the other debouncers stay. -/
theorem mem_flushed {w : Watch} {x : DocumentId × Debouncer Fingerprint}
    (h : x ∈ (w.flushed id).debouncers) :
    (∃ d, (id, d) ∈ w.debouncers ∧ x = (id, d.disarm)) ∨ (x.1 ≠ id ∧ x ∈ w.debouncers) := by
  unfold flushed at h
  split at h
  · rename_i d hd
    exact (mem_setDebouncer h).imp_left fun hx => ⟨d, mem_of_debouncer? hd, hx⟩
  · rename_i hd
    exact .inr ⟨ne_of_debouncer?_none hd h, h⟩

theorem pends_of_flushed {w : Watch} (h : (w.flushed id).Pends other fp) :
    other ≠ id ∧ w.Pends other fp := by
  obtain ⟨x, p, hx, rfl, hp, hfp⟩ := h
  rcases mem_flushed hx with ⟨d, -, rfl⟩ | ⟨hne, hx⟩
  · cases hp
  · exact ⟨hne, x, p, hx, rfl, hp, hfp⟩

end Watch

end SmellWatch
