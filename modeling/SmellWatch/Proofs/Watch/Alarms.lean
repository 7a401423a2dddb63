import SmellWatch.Proofs.Watch.Redundancy
import SmellWatch.Proofs.Watch.Settings
/-! When the calls that wait are due.

`slot_step` tells where each debouncer comes from that there is after a step: it was there,
or its call was taken away, or a call was just made.  So all debouncers have the delay that
is in force (`Run.delays`), and a call is due when this delay has passed since the text of
its document came, or since settings were adopted that made it wait anew
(`Run.due_of_waits`). -/

namespace SmellWatch

namespace Watch

variable {now : Duration} {id : DocumentId} {fp : Fingerprint} {w w' : Watch} {e : Event}
  {r : Run} {x : DocumentId × Debouncer Fingerprint} {p : Debouncer.Pending Fingerprint}

/-! ## Debouncers, step by step -/

/-- All debouncers have the delay that is in force. -/
def Delays (w : Watch) : Prop := ∀ x ∈ w.debouncers, x.2.delay = w.options.debounce

/-- Whether settings are adopted for which every call waits anew. -/
def rearms (w : Watch) : Event → Bool
  | .reconfigured options config =>
    options.debounce ≠ w.options.debounce || config ≠ w.store.config
  | _ => false

/-- An event leaves the call for an open document alone. -/
structure Spares (w : Watch) (e : Event) (id : DocumentId) : Prop where
  saved : e ≠ .saved id
  closed : e ≠ .closed id
  shutDown : e ≠ .shutDown
  text : e.textOf? = some id → ∀ content, e.text? = some content →
    ¬ w.store.IsNews id (Fingerprint.ofText content)
  settings : w.rearms e = true → w.store.get? id = none

/-- Where a debouncer comes from. -/
inductive Slot (now : Duration) (w : Watch) (e : Event) (x : DocumentId × Debouncer Fingerprint) :
    Prop
  | kept (h : x ∈ w.debouncers) (hspares : w.Spares e x.1)
      (hdelay : x.2.delay = (w.step now e).1.options.debounce)
  | emptied (hp : x.2.pending = none) (hdelay : x.2.delay = (w.step now e).1.options.debounce)
  /-- A text has come for which the cache has nothing. -/
  | called (content : String) (hsaid : e.text? = some content) (hdocument : e.textOf? = some x.1)
      (hnews : w.store.IsNews x.1 (Fingerprint.ofText content))
      (hmissed : (w.step now e).1.store.getCached? now x.1 = none)
      (hdelay : x.2.delay = (w.step now e).1.options.debounce)
      (hp : x.2.pending = some ⟨Fingerprint.ofText content, now + x.2.delay⟩)
      (harmed : x.2.IsArmed)
  /-- Other settings make a document wait anew. -/
  | recalled (d : DocumentEntry) (hrearms : w.rearms e = true) (hopen : w.store.get? x.1 = some d)
      (hdelay : x.2.delay = (w.step now e).1.options.debounce)
      (hp : x.2.pending = some ⟨d.fingerprint, now + x.2.delay⟩) (harmed : x.2.IsArmed)

theorem Slot.hdelay (h : Slot now w e x) : x.2.delay = (w.step now e).1.options.debounce := by
  cases h <;> assumption

theorem Spares.of_quiet (hdocument : e.textOf? = none) (hsaved : ∀ id, e ≠ .saved id)
    (hclosed : ∀ id, e ≠ .closed id) (hup : e ≠ .shutDown) (hrearms : w.rearms e = false)
    (id : DocumentId) : w.Spares e id where
  saved := hsaved id
  closed := hclosed id
  shutDown := hup
  text := fun h => nomatch hdocument.symm.trans h
  settings := fun h => nomatch hrearms.symm.trans h

theorem slot_of_mem (hdelays : w.Delays) (hsame : SameSettings w (w.step now e).1)
    (hx : x ∈ w.debouncers) (hspares : w.Spares e x.1) : Slot now w e x :=
  .kept hx hspares ((hdelays x hx).trans (by rw [hsame.options]))

theorem slot_of_flushed {d : Debouncer Fingerprint} (hdelays : w.Delays)
    (hsame : SameSettings w (w.step now e).1) (hd : (id, d) ∈ w.debouncers) :
    Slot now w e (id, d.disarm) := by
  refine .emptied rfl ?_
  rw [hsame.options]
  exact hdelays (id, d) hd

/-- A document is scheduled: a call for it waits, and the others stay. -/
theorem mem_schedule (hdelays : w.Delays) (hx : x ∈ (w.schedule now id fp).1.debouncers) :
    (x.1 = id ∧ x.2.delay = w.options.debounce ∧
      x.2.pending = some ⟨fp, now + x.2.delay⟩ ∧ x.2.IsArmed) ∨
      (x.1 ≠ id ∧ x ∈ w.debouncers) := by
  unfold schedule at hx
  rcases mem_setDebouncer hx with rfl | h
  · refine .inl ⟨rfl, ?_, rfl, Debouncer.isArmed_call now fp w.timers _⟩
    show ((w.debouncer? id).getD _).delay = _
    cases hd : w.debouncer? id with
    | none => rfl
    | some d => exact hdelays _ (mem_of_debouncer? hd)
  · exact .inr h

theorem Delays.schedule (h : w.Delays) (now : Duration) (id : DocumentId) (fp : Fingerprint) :
    (w.schedule now id fp).1.Delays := by
  intro x hx
  rw [(sameTerms_schedule now id fp w).options]
  rcases mem_schedule h hx with ⟨-, hdelay, -⟩ | ⟨-, hx⟩
  · exact hdelay
  · exact h x hx

theorem slot_update {content : String} (hsaid : e.text? = some content)
    (hdocument : e.textOf? = some id) (hstep : w.step now e = w.update now id content)
    (hdelays : w.Delays) (hx : x ∈ (w.step now e).1.debouncers) : Slot now w e x := by
  have hevent : ∀ other, e ≠ .saved other ∧ e ≠ .closed other ∧ e ≠ .shutDown ∧
      w.rearms e = false := by
    intro other
    cases e <;> cases hsaid <;> exact ⟨nofun, nofun, nofun, rfl⟩
  have hsame : SameSettings w (w.step now e).1 := by
    rw [hstep]
    exact sameSettings_update now id content w
  have hspared : ∀ other, (other = id → ¬ w.store.IsNews id (Fingerprint.ofText content)) →
      w.Spares e other := by
    intro other hnews
    obtain ⟨hsaved, hclosed, hup, hrearms⟩ := hevent other
    refine ⟨hsaved, hclosed, hup, fun ho c hc => ?_, fun h => nomatch hrearms.symm.trans h⟩
    cases hdocument.symm.trans ho
    cases hsaid.symm.trans hc
    exact hnews rfl
  by_cases hnews : w.store.IsNews id (Fingerprint.ofText content)
  · have hapart : x.1 ≠ id → w.Spares e x.1 := fun hne => hspared x.1 fun h => absurd h hne
    cases hc : (w.store.upsert id content).2.getCached? now id with
    | none =>
      have hupdate := hstep.trans (update_missed hnews hc)
      rw [hupdate] at hx
      rcases mem_schedule (w := { w with store := (w.store.upsert id content).2 }) hdelays hx with
        ⟨rfl, hdelay, hp, harmed⟩ | ⟨hne, hx⟩
      · refine .called content hsaid hdocument hnews ?_ (hdelay.trans (by rw [hsame.options])) hp
          harmed
        rw [hupdate, schedule_store]
        exact hc
      · exact slot_of_mem hdelays hsame hx (hapart hne)
    | some findings =>
      rw [hstep.trans (update_cached hnews hc)] at hx
      rcases mem_flushed hx with ⟨d, hd, rfl⟩ | ⟨hne, hx⟩
      · exact slot_of_flushed hdelays hsame hd
      · exact slot_of_mem hdelays hsame hx (hapart hne)
  · rw [hstep, update_same now hnews] at hx
    exact slot_of_mem hdelays hsame hx (hspared x.1 fun _ => hnews)

theorem slot_save (hdelays : w.Delays) (hx : x ∈ (w.step now (.saved id)).1.debouncers) :
    Slot now w (.saved id) x := by
  have hsame : SameSettings w (w.step now (.saved id)).1 := sameSettings_step rfl
  rw [show (w.step now (.saved id)).1.debouncers = (w.flushed id).debouncers from
    (inert_save now id w).debouncers] at hx
  rcases mem_flushed hx with ⟨d, hd, rfl⟩ | ⟨hne, hx⟩
  · exact slot_of_flushed hdelays hsame hd
  · exact slot_of_mem hdelays hsame hx
      ⟨fun h => hne (Event.saved.inj h).symm, nofun, nofun, nofun, nofun⟩

theorem slot_quiet {timer : Debouncer.Timer} {due : Duration} (hdelays : w.Delays)
    (hx : x ∈ (w.step now (.ran (.debounce id timer due))).1.debouncers) :
    Slot now w (.ran (.debounce id timer due)) x := by
  have hsame : SameSettings w (w.step now (.ran (.debounce id timer due))).1 :=
    sameSettings_step rfl
  have hspares : w.Spares (.ran (.debounce id timer due)) x.1 :=
    .of_quiet (e := .ran (.debounce id timer due)) rfl nofun nofun nofun rfl x.1
  have hkept : x ∈ w.debouncers → Slot now w (.ran (.debounce id timer due)) x :=
    fun hx => slot_of_mem hdelays hsame hx hspares
  unfold step run at hx
  dsimp only at hx
  split at hx
  · exact hkept hx
  · unfold quiet at hx
    split at hx
    · exact hkept hx
    · rename_i d hd
      split at hx
      · exact hkept hx
      · rename_i d' hring
        rw [(inert_fire now id _ _).debouncers] at hx
        rcases mem_setDebouncer hx with rfl | ⟨-, hx⟩
        · obtain ⟨p, -, -, rfl⟩ := Debouncer.taken_of_ring hring
          refine .emptied rfl ?_
          rw [hsame.options]
          exact hdelays (id, d) (mem_of_debouncer? hd)
        · exact hkept hx

/-- Documents are scheduled: for those of them that are open a call waits, and the other
debouncers stay. -/
theorem mem_scheduleAll {ids : List DocumentId} (hdelays : w.Delays)
    (hx : x ∈ (scheduleAll now ids w).1.debouncers) :
    (x ∈ w.debouncers ∧ (x.1 ∈ ids → w.store.get? x.1 = none)) ∨
      (x.2.delay = w.options.debounce ∧ x.1 ∈ ids ∧ ∃ d, w.store.get? x.1 = some d ∧
        x.2.pending = some ⟨d.fingerprint, now + x.2.delay⟩ ∧ x.2.IsArmed) := by
  induction ids generalizing w with
  | nil => exact .inl ⟨hx, fun h => absurd h List.not_mem_nil⟩
  | cons i r ih =>
    unfold scheduleAll at hx
    cases hi : w.store.get? i with
    | none =>
      rw [hi] at hx
      rcases ih hdelays hx with ⟨hx, hr⟩ | ⟨hdelay, hr, hd⟩
      · refine .inl ⟨hx, fun h => ?_⟩
        rcases List.mem_cons.mp h with heq | h
        · rw [heq]
          exact hi
        · exact hr h
      · exact .inr ⟨hdelay, List.mem_cons_of_mem _ hr, hd⟩
    | some d =>
      rw [hi] at hx
      have hopen : (w.schedule now i d.fingerprint).1.store = w.store :=
        schedule_store w i d.fingerprint
      have hoptions := (sameTerms_schedule now i d.fingerprint w).options
      rcases ih (hdelays.schedule now i d.fingerprint) hx with ⟨hx, hr⟩ | ⟨hdelay, hr, hd⟩
      · rw [hopen] at hr
        rcases mem_schedule hdelays hx with ⟨rfl, hdelay, hcall⟩ | ⟨hne, hx⟩
        · exact .inr ⟨hdelay, List.mem_cons_self, d, hi, hcall⟩
        · exact .inl ⟨hx, fun h => hr ((List.mem_cons.mp h).resolve_left hne)⟩
      · rw [hopen] at hd
        exact .inr ⟨hdelay.trans (by rw [hoptions]), List.mem_cons_of_mem _ hr, hd⟩

theorem mem_adopting {options : WatchOptions} {config : Fingerprint}
    (hx : x ∈ (w.adopting now options config).debouncers) :
    x ∈ w.debouncers ∧ w.options.debounce = options.debounce := by
  unfold adopting at hx
  by_cases hd : w.options.debounce = options.debounce
  · rw [if_pos hd] at hx
    exact ⟨hx, hd⟩
  · rw [if_neg hd] at hx
    simp [dropDebouncers] at hx

theorem slot_reconfigure {options : WatchOptions} {config : Fingerprint} (hdelays : w.Delays)
    (hx : x ∈ (w.step now (.reconfigured options config)).1.debouncers) :
    Slot now w (.reconfigured options config) x := by
  have hoptions : (w.step now (.reconfigured options config)).1.options = options :=
    options_step now _ w
  have hadopted : (w.adopting now options config).Delays := by
    intro x hx
    obtain ⟨hx, hd⟩ := mem_adopting hx
    exact (hdelays x hx).trans hd
  have hopen : (w.adopting now options config).store.get? x.1 = w.store.get? x.1 :=
    DocumentStore.get?_setConfig w.store config x.1
  rw [show w.step now (.reconfigured options config) = _ from
    reconfigure_eq now options config w] at hx
  rcases mem_scheduleAll hadopted hx with ⟨hx, hr⟩ | ⟨hdelay, hr, d, hd, hp, harmed⟩
  · obtain ⟨hmem, hd⟩ := mem_adopting hx
    rw [hopen] at hr
    refine .kept hmem ⟨nofun, nofun, nofun, nofun, fun hrearms => ?_⟩
      ((hdelays x hmem).trans (by rw [hoptions, hd]))
    -- with the same delay all open documents are scheduled
    by_contra hne
    obtain ⟨d, hget⟩ := Option.ne_none_iff_exists'.mp hne
    have hconfig : w.store.config ≠ config := by
      rintro rfl
      simp [rearms, hd] at hrearms
    refine hne (hr ?_)
    unfold anew
    rw [if_neg hconfig]
    rw [← DocumentStore.get?_setConfig w.store config] at hget
    exact List.mem_map.mpr ⟨d, DocumentStore.mem_of_get? hget, DocumentStore.id_of_get? hget⟩
  · refine .recalled d ?_ (hopen.symm.trans hd) (hdelay.trans (by rw [hoptions]; rfl)) hp harmed
    unfold anew at hr
    unfold rearms
    by_cases hc : w.store.config = config
    · by_cases hd : w.options.debounce = options.debounce
      · simp [hc, hd] at hr
      · simp [Ne.symm hd]
    · simp [Ne.symm hc]

theorem slot_step (hdelays : w.Delays) (hx : x ∈ (w.step now e).1.debouncers) :
    Slot now w e x := by
  have hstill : Inert w (w.step now e).1 → e.textOf? = none → (∀ id, e ≠ .saved id) →
      (∀ id, e ≠ .closed id) → e ≠ .shutDown → w.rearms e = false → Slot now w e x :=
    fun hinert hdocument hsaved hclosed hup hrearms =>
      slot_of_mem hdelays hinert.toSameSettings (hinert.debouncers ▸ hx)
        (.of_quiet hdocument hsaved hclosed hup hrearms x.1)
  cases e with
  | opened id content => exact slot_update rfl rfl rfl hdelays hx
  | changed id content => exact slot_update rfl rfl rfl hdelays hx
  | saved id => exact slot_save hdelays hx
  | closed id =>
    obtain ⟨hx, hgone⟩ := List.mem_filter.mp (show x ∈ w.debouncers.filter _ from hx)
    refine slot_of_mem hdelays (sameSettings_step rfl) hx ⟨nofun, fun h => ?_, nofun, nofun, nofun⟩
    simp [Event.closed.inj h] at hgone
  | reconfigured options config => exact slot_reconfigure hdelays hx
  | configSet config => exact hstill (.of_eq rfl rfl rfl rfl rfl) rfl nofun nofun nofun rfl
  | shutDown =>
    obtain ⟨y, hy, rfl⟩ := List.mem_map.mp (show x ∈ w.debouncers.map _ from hx)
    exact .emptied rfl (hdelays y hy)
  | ran t =>
    cases t with
    | debounce id timer due => exact slot_quiet hdelays hx
    | worker => exact hstill (inert_takeTurn now w) rfl nofun nofun nofun rfl
    | work ticket => exact hstill (inert_goOn now ticket w) rfl nofun nofun nofun rfl
    | completion ticket => exact hstill (inert_complete now ticket w) rfl nofun nofun nofun rfl
  | answered ticket reply =>
    exact hstill (inert_answered now ticket reply w) rfl nofun nofun nofun rfl

theorem Run.delays (r : Run) : r.watch.Delays := by
  induction r with
  | start options config now => exact fun x hx => absurd hx List.not_mem_nil
  | next r now e ih => exact fun x hx => (slot_step ih hx).hdelay

/-- The timer of every call that waits is set. -/
theorem Run.armed (r : Run) : ∀ x ∈ r.watch.debouncers, x.2.IsArmed := by
  induction r with
  | start options config now => exact fun x hx => absurd hx List.not_mem_nil
  | next r now e ih =>
    intro x hx
    cases slot_step r.delays hx with
    | kept hmem hspares hdelay => exact ih x hmem
    | emptied hp hdelay => exact Debouncer.isArmed_of_none hp
    | called content hsaid hdocument hnews hmissed hdelay hp harmed => exact harmed
    | recalled d hrearms hopen hdelay hp harmed => exact harmed

/-! ## When calls are due -/

namespace Run

/-- Since when a call for a document waits, if one does: its text came then, or settings were
adopted for which every call waits anew. -/
def waitsSince? (id : DocumentId) : Run → Option Duration
  | start _ _ _ => none
  | next r now e =>
    if (next r now e).text? id = r.text? id ∧ r.watch.rearms e = false then r.waitsSince? id
    else some now

/-- Time does not go back, and it does not go past a call that is due: it is acted on first,
or taken away. -/
def IsPunctual : Run → Prop
  | start _ _ _ => True
  | next r now _ => r.IsPunctual ∧ r.clock ≤ now ∧
      ∀ x ∈ r.watch.debouncers, ∀ p ∈ x.2.pending, now ≤ p.due

instance decidableIsPunctual : (r : Run) → Decidable r.IsPunctual
  | start _ _ _ => isTrue trivial
  | next r now _ =>
    have := decidableIsPunctual r
    inferInstanceAs (Decidable (r.IsPunctual ∧ r.clock ≤ now ∧
      ∀ x ∈ r.watch.debouncers, ∀ p ∈ x.2.pending, now ≤ p.due))

theorem IsPunctual.le_due {r : Run} (h : (r.next now e).IsPunctual) (hp : r.watch.Waits id p) :
    now ≤ p.due := by
  obtain ⟨x, hx, -, hp⟩ := hp
  exact h.2.2 x hx p hp

/-- What a call that waits after a step is: one that waited before, or a new one. -/
inductive Wait (r : Run) (now : Duration) (e : Event) (id : DocumentId)
    (p : Debouncer.Pending Fingerprint) : Prop
  | kept (h : r.watch.Waits id p) (hspares : r.watch.Spares e id)
      (htext : (r.next now e).text? id = r.text? id) (hrearms : r.watch.rearms e = false)
      (hdelay : (r.next now e).watch.options.debounce = r.watch.options.debounce)
  /-- A text has come for which the cache has nothing. -/
  | made (hdocument : e.textOf? = some id) (htext : (r.next now e).text? id ≠ r.text? id)
      (hmissed : (r.next now e).watch.store.getCached? now id = none)
      (hdue : p.due = now + (r.next now e).watch.options.debounce)
  | remade (hrearms : r.watch.rearms e = true)
      (hdue : p.due = now + (r.next now e).watch.options.debounce)

theorem wait (h : (r.next now e).watch.Waits id p) : Wait r now e id p := by
  have htext := text?_of_pends h.pends
  obtain ⟨x, hx, rfl, hp⟩ := h
  cases slot_step r.delays hx with
  | kept hmem hspares hdelay =>
    have hpast : r.watch.Waits x.1 p := ⟨x, hmem, rfl, hp⟩
    have hold := text?_of_pends hpast.pends
    have hrearms : r.watch.rearms e = false := by
      by_contra hne
      have hclosed := hspares.settings (Bool.not_eq_false _ ▸ hne)
      unfold text? DocumentStore.text? at hold
      rw [hclosed] at hold
      cases hold
    exact .kept hpast hspares (htext.trans hold.symm) hrearms
      (hdelay.symm.trans (r.delays x hmem))
  | emptied hnone => cases hnone.symm.trans hp
  | called content hsaid hdocument hnews hmissed hdelay hcall harmed =>
    obtain rfl := Option.some.inj (hcall.symm.trans hp)
    refine .made hdocument ?_ hmissed (congrArg (now + ·) hdelay)
    intro hsame
    rw [hsame] at htext
    obtain ⟨d, hd, hfp⟩ := Option.map_eq_some_iff.mp htext
    exact hnews d hd hfp
  | recalled d hrearms hopen hdelay hcall harmed =>
    obtain rfl := Option.some.inj (hcall.symm.trans hp)
    exact .remade hrearms (congrArg (now + ·) hdelay)

/-- A call is due when the delay in force has passed since it waits. -/
theorem due_of_waits {r : Run} (h : r.watch.Waits id p) :
    ∃ t, r.waitsSince? id = some t ∧ p.due = t + r.watch.options.debounce := by
  induction r with
  | start options config now =>
    obtain ⟨x, hx, -⟩ := h
    exact absurd hx List.not_mem_nil
  | next r now e ih =>
    cases wait h with
    | kept hpast _ htext hrearms hdelay =>
      obtain ⟨t, ht, hdue⟩ := ih hpast
      refine ⟨t, ?_, by rw [hdue, hdelay]⟩
      unfold waitsSince?
      rw [if_pos ⟨htext, hrearms⟩]
      exact ht
    | made _ htext _ hdue =>
      refine ⟨now, ?_, hdue⟩
      unfold waitsSince?
      exact if_neg fun h => htext h.1
    | remade hrearms hdue =>
      refine ⟨now, ?_, hdue⟩
      unfold waitsSince?
      exact if_neg fun h => nomatch h.2.symm.trans hrearms

end Run

end Watch

end SmellWatch
