import SmellWatch.Proofs.Watch.Stay
/-! Open documents are attended to.

From some moment on, say from the start or from a change of the settings, something is
owed to each open document (`Attended`): a call waits for it, or it has a result that
stems from later, or the last analysis of it was begun later and is under way, or ended
silently.  The one thing in the way is an analysis from before that is still under way:
a call meets it and is over.  When it ends, the document is left behind
(`Run.LeftBehind`), unless something else comes.

From the start nothing is from before, so no edit is lost (`result_or_silent_of_idle`).
After a change of the settings a document is reached unless it was left behind
(`isReached_iff`). -/

namespace SmellWatch

namespace Watch

variable {now : Duration} {id : DocumentId} {r r' : Run} {e : Event} {c b : Case}
  {d : DocumentEntry} {k : Nat}

namespace Run

/-- The last analysis of a text of an open document since it was opened. -/
def lastOf? (r : Run) (id : DocumentId) (fp : Fingerprint) : Option Case :=
  (r.stay id).find? (·.text = fp)

/-- The last analysis of an open document, if it was begun at a moment or later. -/
def lastSince? (r : Run) (id : DocumentId) (k : Nat) : Option Case :=
  (r.stay id).find? (k ≤ ·.begunAt)

/-- The last analysis of an open document was begun at a moment or later, and ended
silently. -/
def SilentSince (r : Run) (id : DocumentId) (k : Nat) : Prop :=
  ∃ c, r.lastSince? id k = some c ∧ c.EndedSilently

/-- Since a moment no analysis of an open document was begun, and no result was taken
from the cache or stems from an analysis begun since. -/
structure NothingSince (r : Run) (id : DocumentId) (k : Nat) : Prop where
  noneBegun : ∀ c ∈ r.stay id, c.begunAt < k
  noResult : ∀ m, r.resultFrom? id = some m → m < k

/-- An analysis from before a moment was concluded since, and nothing has come of the
document since then, or only the result of that analysis. -/
def LeftBehind (r : Run) (id : DocumentId) (k : Nat) : Prop :=
  ∃ c ∈ r.cases, c.document = id ∧ c.begunAt < k ∧ (∃ x, c.ending = some x ∧ k ≤ x.moment) ∧
    (r.NothingSince id k ∨ r.resultFrom? id = some c.begunAt)

theorem NothingSince.of_eq (h : r.NothingSince id k) (hstay : r'.stay id = r.stay id)
    (hresult : r'.resultFrom? id = r.resultFrom? id) : r'.NothingSince id k where
  noneBegun := hstay ▸ h.noneBegun
  noResult := hresult ▸ h.noResult

theorem NothingSince.map_closing (h : r.NothingSince id k)
    (hstay : r'.stay id = (r.stay id).map (r.closing e))
    (hresult : r'.resultFrom? id = r.resultFrom? id) : r'.NothingSince id k where
  noneBegun := by
    intro c hc
    rw [hstay] at hc
    obtain ⟨b, hb, rfl⟩ := List.mem_map.mp hc
    rw [closing_begunAt]
    exact h.noneBegun b hb
  noResult := hresult ▸ h.noResult

/-- What is newer than the last analysis of an open document is not one of its analyses. -/
theorem begunAt_le_of_stay {l : List Case} (hstay : r.stay id = c :: l) (hb : b ∈ r.stay id) :
    b.begunAt ≤ c.begunAt := by
  have hsorted := r.stay_sorted id
  rw [hstay] at hb hsorted
  rcases List.mem_cons.mp hb with rfl | hb
  · exact Nat.le_refl _
  · exact Nat.le_of_lt ((List.pairwise_cons.mp hsorted).1 b hb)

/-- No analysis of the document is newer than the last one since it was opened. -/
theorem not_newer {l : List Case} (hstay : r.stay id = c :: l) (hb : b ∈ r.cases)
    (hdocument : b.document = id) : ¬ c.begunAt < b.begunAt := by
  intro hlt
  obtain ⟨-, -, m, hm, hle⟩ := mem_stay.mp (show c ∈ r.stay id from hstay ▸ List.mem_cons_self)
  have hmem : b ∈ r.stay id := mem_stay.mpr ⟨hb, hdocument, m, hm, by omega⟩
  have := begunAt_le_of_stay hstay hmem
  omega

/-- A document that was left behind is so while nothing new comes. -/
theorem LeftBehind.next (h : r.LeftBehind id k) (hk : k ≤ r.moment)
    (hnothing : r.NothingSince id k → (r.next now e).NothingSince id k)
    (hresult : (r.next now e).resultFrom? id = r.resultFrom? id) :
    (r.next now e).LeftBehind id k := by
  obtain ⟨c, hc, hdocument, hold, ⟨x, hx, hxk⟩, hwhy⟩ := h
  refine ⟨r.closing e c, mem_cases_next.mpr (.inr ⟨c, hc, rfl⟩), ?_, ?_, ?_, ?_⟩
  · rw [Case.document, closing_analysis]
    exact hdocument
  · rw [closing_begunAt]
    exact hold
  · unfold closing
    split
    · unfold Case.close
      split
      · exact ⟨_, rfl, hk⟩
      · exact ⟨x, hx, hxk⟩
    · exact ⟨x, hx, hxk⟩
  · rw [hresult, closing_begunAt]
    exact hwhy.imp_left hnothing

/-- An analysis from before that is concluded leaves its document behind, unless
something came in between. -/
theorem leftBehind_of_concluded {t : Nat} {x : Outcome} (hc : c ∈ r.cases)
    (ht : c.ticket = some t) (hevent : r.watch.concluded? e = some (t, x))
    (hdocument : c.document = id) (hk : k ≤ r.moment) (hold : c.begunAt < k)
    (h : (r.next now e).NothingSince id k ∨
      (r.next now e).resultFrom? id = some c.begunAt) : (r.next now e).LeftBehind id k := by
  refine ⟨r.closing e c, mem_cases_next.mpr (.inr ⟨c, hc, rfl⟩), ?_, ?_, ?_, ?_⟩
  · rw [Case.document, closing_analysis]
    exact hdocument
  · rw [closing_begunAt]
    exact hold
  · rw [closing_of_concluded hevent ht]
    exact ⟨_, rfl, hk⟩
  · rw [closing_begunAt]
    exact h

end Run

/-! ## What is owed to a document -/

/-- How a document is attended to from a moment on. -/
inductive Attended (r : Run) (id : DocumentId) (d : DocumentEntry) (k : Nat) : Prop
  | awaits (hcall : r.watch.Awaits id d.fingerprint)
  | current (m : Nat) (hcurrent : d.hasCurrentResult = true) (hresult : r.resultFrom? id = some m)
      (hnew : k ≤ m)
  | begun (c : Case) (l : List Case) (hstay : r.stay id = c :: l) (htext : c.text = d.fingerprint)
      (hnew : k ≤ c.begunAt) (hend : c.IsOpen ∨ c.EndedSilently)
  /-- An analysis from before is in the way. -/
  | blocked (c : Case) (l : List Case) (hstay : r.stay id = c :: l)
      (htext : c.text = d.fingerprint) (hisOpen : c.IsOpen) (hold : c.begunAt < k)
      (hnothing : r.NothingSince id k)
  | leftBehind (h : r.LeftBehind id k)

/-- An open document is attended to, and if an analysis from before is in its way, nothing
has come since. -/
structure Heeded (r : Run) (id : DocumentId) (k : Nat) : Prop where
  attended : ∀ d, r.get? id = some d → Attended r id d k
  hindered : ∀ d, r.get? id = some d → d.inFlight = true →
    (∃ c ∈ r.stay id, k ≤ c.begunAt) ∨ r.NothingSince id k

/-- A call that meets an analysis under way is over, and the analysis is in its place. -/
theorem attended_of_inFlight (hopen : r.get? id = some d) (hflight : d.inFlight = true)
    (h : (∃ c ∈ r.stay id, k ≤ c.begunAt) ∨ r.NothingSince id k) : Attended r id d k := by
  obtain ⟨c, l, hstay, htext, -, hisOpen⟩ := r.owner id d hopen hflight
  by_cases hnew : k ≤ c.begunAt
  · exact .begun c l hstay htext hnew (.inl hisOpen)
  · refine .blocked c l hstay htext hisOpen (by omega) ?_
    rcases h with ⟨b, hb, hbk⟩ | hnothing
    · have := Run.begunAt_le_of_stay hstay hb
      omega
    · exact hnothing

/-- Apart from a call, a document is attended to as before while nothing happens to it. -/
theorem Attended.keep (h : Attended r id d k) (hk : k ≤ r.moment)
    (hstay : (r.next now e).stay id = r.stay id)
    (hresult : (r.next now e).resultFrom? id = r.resultFrom? id)
    (hcall : r.watch.Awaits id d.fingerprint → Attended (r.next now e) id d k) :
    Attended (r.next now e) id d k := by
  cases h with
  | awaits h => exact hcall h
  | current m hcurrent hm hnew => exact .current m hcurrent (hresult.trans hm) hnew
  | begun c l hc htext hnew hend => exact .begun c l (hstay.trans hc) htext hnew hend
  | blocked c l hc htext hisOpen hold hnothing =>
    exact .blocked c l (hstay.trans hc) htext hisOpen hold (hnothing.of_eq hstay hresult)
  | leftBehind hleft =>
    exact .leftBehind (hleft.next hk (fun hn => hn.of_eq hstay hresult) hresult)

/-- An analysis that is concluded without a result ended silently, or is about another
text, or is not the last one. -/
theorem endedSilently_of_lapsed {t : Nat} {x : Outcome} {l : List Case}
    (ht : c.ticket = some t) (hevent : r.watch.concluded? e = some (t, x))
    (hwhy : verdict x = .dropped ∨ d.fingerprint ≠ c.text)
    (hsuperseded : x = .error .superseded →
      ∃ b ∈ r.cases, b.document = id ∧ c.begunAt < b.begunAt)
    (hstay : r.stay id = c :: l) (htext : c.text = d.fingerprint) :
    (r.closing e c).EndedSilently := by
  rw [Run.closing_of_concluded hevent ht]
  rcases hwhy with hdropped | hne
  · rcases verdict_dropped hdropped with hsup | hsilent
    · obtain ⟨b, hb, hdocument, hlt⟩ := hsuperseded hsup
      exact absurd hlt (Run.not_newer hstay hb hdocument)
    · exact ⟨_, rfl, hsilent⟩
  · exact absurd htext.symm hne

/-- What is owed to a document when an analysis of it is concluded without a result. -/
theorem Attended.lapse {t : Nat} {x : Outcome} {n : Nat} (h : Attended r id d k)
    (hk : k ≤ r.moment) (hc : c ∈ r.cases) (ht : c.ticket = some t) (hdocument : c.document = id)
    (hevent : r.watch.concluded? e = some (t, x))
    (hwhy : verdict x = .dropped ∨ d.fingerprint ≠ c.text)
    (hsuperseded : x = .error .superseded →
      ∃ b ∈ r.cases, b.document = id ∧ c.begunAt < b.begunAt)
    (hstay : (r.next now e).stay id = (r.stay id).map (r.closing e))
    (hresult : (r.next now e).resultFrom? id = r.resultFrom? id)
    (hcalls : ∀ fp, r.watch.Awaits id fp → (r.next now e).watch.Awaits id fp) :
    Attended (r.next now e) id (DocumentStore.freed n d) k := by
  cases h with
  | awaits hcall => exact .awaits (hcalls _ hcall)
  | current m hcurrent hm hnew => exact .current m hcurrent (hresult.trans hm) hnew
  | begun b l hb htext hnew hend =>
    have hb' : (r.next now e).stay id = r.closing e b :: l.map (r.closing e) := by
      rw [hstay, hb, List.map_cons]
    have hmem : b ∈ r.cases := (Run.mem_stay.mp (hb ▸ List.mem_cons_self)).1
    refine .begun _ _ hb' ?_ ?_ ?_
    · rw [Case.text, Run.closing_analysis]
      exact htext
    · rw [Run.closing_begunAt]
      exact hnew
    · by_cases hbc : b = c
      · subst hbc
        exact .inr (endedSilently_of_lapsed ht hevent hwhy hsuperseded hb htext)
      · rw [Run.closing_of_other hc ht hevent hmem hbc]
        exact hend
  | blocked b l hb htext hisOpen hold hnothing =>
    have hb' : (r.next now e).stay id = r.closing e b :: l.map (r.closing e) := by
      rw [hstay, hb, List.map_cons]
    have hmem : b ∈ r.cases := (Run.mem_stay.mp (hb ▸ List.mem_cons_self)).1
    have hnothing' := hnothing.map_closing hstay hresult
    by_cases hbc : b = c
    · subst hbc
      exact .leftBehind (Run.leftBehind_of_concluded hc ht hevent hdocument hk hold
        (.inl hnothing'))
    · rw [Run.closing_of_other hc ht hevent hmem hbc] at hb'
      exact .blocked b _ hb' htext hisOpen hold hnothing'
  | leftBehind hleft =>
    exact .leftBehind (hleft.next hk (fun hn => hn.map_closing hstay hresult) hresult)

namespace Heeded

theorem hindered_next (h : Heeded r id k) (hk : k ≤ r.moment) (d : DocumentEntry)
    (hopen : (r.next now e).get? id = some d) (hflight : d.inFlight = true) :
    (∃ c ∈ (r.next now e).stay id, k ≤ c.begunAt) ∨ (r.next now e).NothingSince id k := by
  cases passage r now e id with
  | away hclosed =>
    rw [hclosed] at hopen
    cases hopen
  | kept d₀ hopen₀ hopen' hstay hresult _ =>
    rw [hopen'] at hopen
    cases hopen
    rw [hstay]
    exact (h.hindered _ hopen₀ hflight).imp_right fun hn => hn.of_eq hstay hresult
  | edited content _ hopen' _ _ _ =>
    rw [hopen'] at hopen
    cases hopen
    cases hd : r.get? id <;> rw [hd] at hflight <;> cases hflight
  | replayed d₀ findings _ _ hopen' _ _ =>
    rw [hopen'] at hopen
    cases hopen
    cases hflight
  | begun d₀ a _ _ _ _ _ _ hstay _ => exact .inl ⟨_, hstay ▸ List.mem_cons_self, hk⟩
  | fellBack d₀ a findings _ _ _ _ hstay _ => exact .inl ⟨_, hstay ▸ List.mem_cons_self, hk⟩
  | answered c t x d₀ findings _ _ _ _ _ _ _ hopen' _ _ =>
    rw [hopen'] at hopen
    cases hopen
    cases hflight
  | lapsed c t x d₀ _ _ _ _ _ hopen₀ _ _ hopen' hstay hresult _ =>
    rw [hopen'] at hopen
    cases hopen
    have hflight₀ : d₀.inFlight = true := by
      unfold DocumentStore.freed at hflight
      simp only [Bool.and_eq_true] at hflight
      exact hflight.1
    rcases h.hindered d₀ hopen₀ hflight₀ with ⟨b, hb, hbk⟩ | hnothing
    · refine .inl ⟨r.closing e b, hstay ▸ List.mem_map_of_mem hb, ?_⟩
      rw [Run.closing_begunAt]
      exact hbk
    · exact .inr (hnothing.map_closing hstay hresult)

theorem attended_next (h : Heeded r id k) (hk : k ≤ r.moment) (hup : e.isShutDown = false)
    (d : DocumentEntry) (hopen : (r.next now e).get? id = some d) :
    Attended (r.next now e) id d k := by
  have hflights := h.hindered_next hk d hopen
  cases passage r now e id with
  | away hclosed =>
    rw [hclosed] at hopen
    cases hopen
  | kept d₀ hopen₀ hopen' hstay hresult hcalls =>
    rw [hopen'] at hopen
    cases hopen
    refine (h.attended _ hopen₀).keep hk hstay hresult fun hcall => ?_
    rcases hcalls hup hcall with hcall | hflight
    · exact .awaits hcall
    · exact attended_of_inFlight hopen' hflight (hflights hflight)
  | edited content _ hopen' _ _ hcall =>
    rw [hopen'] at hopen
    cases hopen
    refine .awaits ?_
    cases hd : r.get? id <;> exact hcall
  | replayed d₀ findings _ _ hopen' _ hresult =>
    rw [hopen'] at hopen
    cases hopen
    refine .current r.moment ?_ hresult hk
    simp [DocumentEntry.hasCurrentResult, DocumentStore.answered]
  | begun d₀ a _ _ ha hopen' _ _ hstay _ =>
    rw [hopen'] at hopen
    cases hopen
    exact .begun _ _ hstay ha.2.1 hk (.inl ⟨rfl, rfl⟩)
  | fellBack d₀ a findings _ _ _ hopen' _ hresult =>
    rw [hopen'] at hopen
    cases hopen
    refine .current r.moment ?_ hresult hk
    simp [DocumentEntry.hasCurrentResult, DocumentStore.answered]
  | answered c t x d₀ findings hc ht _ hdocument hevent _ _ hopen' _ hresult =>
    rw [hopen'] at hopen
    cases hopen
    by_cases hnew : k ≤ c.begunAt
    · refine .current c.begunAt ?_ hresult hnew
      simp [DocumentEntry.hasCurrentResult, DocumentStore.answered]
    · exact .leftBehind (Run.leftBehind_of_concluded hc ht hevent hdocument hk (by omega)
        (.inr hresult))
  | lapsed c t x d₀ hc ht _ hdocument hevent hopen₀ hwhy hsuperseded hopen' hstay hresult hcalls =>
    rw [hopen'] at hopen
    cases hopen
    exact (h.attended d₀ hopen₀).lapse hk hc ht hdocument hevent hwhy hsuperseded hstay hresult
      hcalls

/-- What is attended to stays so, until the watch is shut down. -/
theorem next (h : Heeded r id k) (hk : k ≤ r.moment) (hup : e.isShutDown = false) :
    Heeded (r.next now e) id k where
  attended := h.attended_next hk hup
  hindered := h.hindered_next hk

theorem start (options : WatchOptions) (config : Fingerprint) (now : Duration) :
    Heeded (.start options config now) id 0 where
  attended := fun _ hd => nomatch hd
  hindered := fun _ hd => nomatch hd

end Heeded

/-- While a watch is up its documents are attended to from the start. -/
theorem Run.heeded (r : Run) (hup : r.IsUp) : Heeded r id 0 := by
  induction r with
  | start options config now => exact .start options config now
  | next r now e ih => exact (ih hup.1).next (Nat.zero_le _) hup.2

/-! ## When nothing is outstanding -/

/-- What is owed is paid when nothing is outstanding. -/
theorem Attended.of_idle (h : Attended r id d k) (hidle : r.watch.IsIdle) :
    (d.hasCurrentResult = true ∧ ∃ m, r.resultFrom? id = some m ∧ k ≤ m) ∨
      (∃ c l, r.stay id = c :: l ∧ c.text = d.fingerprint ∧ k ≤ c.begunAt ∧ c.EndedSilently) ∨
      r.LeftBehind id k := by
  have hnone : ∀ c l, r.stay id = c :: l → ¬ c.IsOpen := by
    intro c l hstay hisOpen
    have hmem : c ∈ r.cases := (Run.mem_stay.mp (hstay ▸ List.mem_cons_self)).1
    obtain ⟨t, -, ht⟩ := (Run.isUnderWay_iff hmem).mpr hisOpen
    exact hidle.not_isUnderWay t ht
  cases h with
  | awaits hcall =>
    obtain ⟨x, p, hx, hp, -⟩ := hcall
    unfold Watch.debouncer? at hx
    obtain ⟨y, hy, rfl⟩ := Option.map_eq_some_iff.mp hx
    have := hidle.quiet y (List.mem_of_find?_eq_some hy)
    rw [Debouncer.isPending, hp] at this
    cases this
  | current m hcurrent hm hnew => exact .inl ⟨hcurrent, m, hm, hnew⟩
  | begun c l hstay htext hnew hend =>
    exact .inr (.inl ⟨c, l, hstay, htext, hnew, hend.resolve_left (hnone c l hstay)⟩)
  | blocked c l hstay _ hisOpen _ _ => exact absurd hisOpen (hnone c l hstay)
  | leftBehind h => exact .inr (.inr h)

/-- No edit is lost: when nothing is outstanding, a document that is open has a result for
its text, or the last analysis of its text ended silently. -/
theorem result_or_silent_of_idle (r : Run) (id : DocumentId) (d : DocumentEntry) (hup : r.IsUp)
    (hidle : r.watch.IsIdle) (hopen : r.get? id = some d) :
    d.hasCurrentResult = true ∨ ∃ c, r.lastOf? id d.fingerprint = some c ∧ c.EndedSilently := by
  rcases ((r.heeded hup).attended d hopen).of_idle hidle with
    ⟨hcurrent, -⟩ | ⟨c, l, hstay, htext, -, hend⟩ | hleft
  · exact .inl hcurrent
  · refine .inr ⟨c, ?_, hend⟩
    unfold Run.lastOf?
    rw [hstay, List.find?_cons_of_pos (by simpa using htext)]
  · obtain ⟨c, -, -, hold, -⟩ := hleft
    omega

theorem result_or_silent_unheard :
    Run.unheard.IsUp ∧ Run.unheard.watch.IsIdle ∧ ∃ d, Run.unheard.get? ⟨"a.go"⟩ = some d ∧
      (d.hasCurrentResult = true ∨
        ∃ c, Run.unheard.lastOf? ⟨"a.go"⟩ d.fingerprint = some c ∧ c.EndedSilently) := by
  have hup : Run.unheard.IsUp := by decide
  obtain ⟨hidle, hsome⟩ : Run.unheard.watch.IsIdle ∧
      (Run.unheard.get? ⟨"a.go"⟩).isSome = true := by decide +kernel
  obtain ⟨d, hopen⟩ := Option.isSome_iff_exists.mp hsome
  exact ⟨hup, hidle, d, hopen, result_or_silent_of_idle _ _ d hup hidle hopen⟩

/-! ## When the settings changed -/

/-- When other settings are adopted that mean something else, a call waits for every open
document. -/
theorem awaits_of_config_changed (hreconfigured : e.isReconfigured = true)
    (hchanged : (r.next now e).watch.store.config ≠ r.watch.store.config)
    (hopen : (r.next now e).get? id = some d) :
    (r.next now e).watch.Awaits id d.fingerprint := by
  unfold Run.get? at hopen
  cases r.stride now e with
  | still hstore => exact absurd (congrArg DocumentStore.config hstore) hchanged
  | edited _ _ _ hstore =>
    rw [hstore, DocumentStore.upsert_config] at hchanged
    exact absurd rfl hchanged
  | replayed _ _ _ _ hreads _ _ _ hstore =>
    rw [hstore, DocumentStore.recordResult_config, config_of_reads hreads] at hchanged
    exact absurd rfl hchanged
  | begun _ _ _ _ _ _ hstore =>
    rw [hstore] at hchanged
    exact absurd rfl hchanged
  | fellBack _ _ _ _ _ _ _ hstore =>
    rw [hstore, DocumentStore.recordResult_config] at hchanged
    exact absurd rfl hchanged
  | turned hstore => exact absurd (congrArg DocumentStore.config hstore) hchanged
  | answered _ _ _ _ _ _ _ _ hstore =>
    rcases hstore with ⟨_, _, _, hstore⟩ | ⟨_, hstore⟩
    · rw [hstore, DocumentStore.setResult_config] at hchanged
      exact absurd rfl hchanged
    · rw [hstore, DocumentStore.recordResult_config] at hchanged
      exact absurd rfl hchanged
  | lapsed _ _ _ _ _ hstore =>
    rw [hstore, DocumentStore.finishAnalysis_config] at hchanged
    exact absurd rfl hchanged
  | closed _ hstore =>
    rw [hstore] at hchanged
    exact absurd rfl hchanged
  | reconfigured config hstore _ _ _ hanew =>
    rw [hstore, DocumentStore.setConfig_config] at hchanged
    rw [hstore, DocumentStore.get?_setConfig] at hopen
    exact hanew hchanged.symm id d hopen
  | configSet _ _ _ _ _ hevent =>
    rw [hevent] at hreconfigured
    cases hreconfigured
  | shutDown hstore => exact absurd (congrArg DocumentStore.config hstore) hchanged

/-- After such a change every open document is attended to anew. -/
theorem Heeded.of_config_changed (hreconfigured : e.isReconfigured = true)
    (hchanged : (r.next now e).watch.store.config ≠ r.watch.store.config) :
    Heeded (r.next now e) id (r.moment + 1) where
  attended := fun _ hd => .awaits (awaits_of_config_changed hreconfigured hchanged hd)
  hindered := fun _ _ _ => .inr
    ⟨fun c hc => (r.next now e).docket.past c (Run.mem_stay.mp hc).1, fun _ hm =>
      Run.resultFrom?_lt hm⟩

theorem Run.lastChange?_lt {r : Run} {k : Nat} {adopted : Bool}
    (h : r.lastChange? = some (k, adopted)) : k < r.moment := by
  induction r with
  | start options config now => cases h
  | next r now e ih =>
    show k < r.moment + 1
    unfold lastChange? at h
    split at h
    · have := ih h
      omega
    · cases h
      exact Nat.lt_succ_self _

/-- While a watch is up its documents are attended to from the last change of its settings
on, if that was one by which other settings were adopted. -/
theorem Run.heeded_since (r : Run) (hup : r.IsUp) (h : r.lastChange? = some (k, true)) :
    Heeded r id (k + 1) := by
  induction r with
  | start options config now => cases h
  | next r now e ih =>
    unfold lastChange? at h
    split at h
    · exact (ih hup.1 h).next (lastChange?_lt h) hup.2
    · rename_i hchanged
      obtain ⟨rfl, hreconfigured⟩ := Prod.mk.inj (Option.some.inj h)
      exact .of_config_changed hreconfigured hchanged

/-- A change of the settings has reached a document: it has a result for its text that
stems from after the change, or the last analysis that was begun since ended silently. -/
def Run.IsReached (r : Run) (id : DocumentId) (d : DocumentEntry) (k : Nat) : Prop :=
  (d.hasCurrentResult = true ∧ ∃ m, r.resultFrom? id = some m ∧ k < m) ∨ r.SilentSince id (k + 1)

/-- When nothing is outstanding, other settings have reached an open document exactly if
it was not left behind, or the last analysis that was begun since ended silently. -/
theorem isReached_iff (r : Run) (id : DocumentId) (d : DocumentEntry) (k : Nat) (hup : r.IsUp)
    (hidle : r.watch.IsIdle) (hchange : r.lastChange? = some (k, true))
    (hopen : r.get? id = some d) :
    r.IsReached id d k ↔ (r.LeftBehind id (k + 1) → r.SilentSince id (k + 1)) := by
  constructor
  · rintro (⟨-, m, hm, hlt⟩ | hsilent) hleft
    · obtain ⟨c, -, -, hold, -, hnothing | hresult⟩ := hleft
      · have := hnothing.noResult m hm
        omega
      · rw [hm] at hresult
        cases hresult
        omega
    · exact hsilent
  · intro h
    rcases ((r.heeded_since hup hchange).attended d hopen).of_idle hidle with
      ⟨hcurrent, m, hm, hnew⟩ | ⟨c, l, hstay, -, hnew, hend⟩ | hleft
    · exact .inl ⟨hcurrent, m, hm, hnew⟩
    · refine .inr ⟨c, ?_, hend⟩
      unfold Run.lastSince?
      rw [hstay, List.find?_cons_of_pos (by simpa using hnew)]
    · exact .inr (h hleft)

/-- Other settings, and the analysis begun under them waits for too long again. -/
def Run.unheardAgain : Run :=
  let changed := Duration.ofSeconds 40
  let quiet := changed + Duration.ofMillis 500
  let late := Duration.ofSeconds 71
  unheard.after
    [(changed, otherSettings), (quiet, .ran (.debounce ⟨"a.go"⟩ ⟨1, 2⟩ quiet)),
      (late, .ran .worker), (late, .ran (.completion 1))]

theorem isReached_unheardAgain :
    Run.unheardAgain.IsUp ∧ Run.unheardAgain.watch.IsIdle ∧
      Run.unheardAgain.lastChange? = some (4, true) ∧
      ∃ d, Run.unheardAgain.get? ⟨"a.go"⟩ = some d ∧
        (Run.unheardAgain.IsReached ⟨"a.go"⟩ d 4 ↔
          (Run.unheardAgain.LeftBehind ⟨"a.go"⟩ 5 → Run.unheardAgain.SilentSince ⟨"a.go"⟩ 5)) := by
  have hup : Run.unheardAgain.IsUp := by decide
  obtain ⟨hidle, hchange, hsome⟩ : Run.unheardAgain.watch.IsIdle ∧
      Run.unheardAgain.lastChange? = some (4, true) ∧
      (Run.unheardAgain.get? ⟨"a.go"⟩).isSome = true := by decide +kernel
  obtain ⟨d, hopen⟩ := Option.isSome_iff_exists.mp hsome
  exact ⟨hup, hidle, hchange, d, hopen, isReached_iff _ _ d 4 hup hidle hchange hopen⟩

/-- The settings change while the service is asked, and its answer comes after the document
was left alone again. -/
def Run.lateAnswer : Run :=
  let changed := Duration.ofMillis 600
  let quiet := Duration.ofMillis 1100
  let late := Duration.ofMillis 2500
  asking.after
    [(changed, otherSettings), (quiet, .ran (.debounce ⟨"a.go"⟩ ⟨1, 2⟩ quiet)),
      (late, .answered 0 (.returned (.ok [.basic "F1" "F1" .warning "F1"]))),
      (late, .ran .worker), (late, .ran (.completion 0)), (late, .ran .worker)]

/-- A document whose analysis was under way when the settings changed keeps its result. -/
theorem not_isReached_lateAnswer :
    Run.lateAnswer.IsUp ∧ Run.lateAnswer.watch.IsIdle ∧
      Run.lateAnswer.lastChange? = some (4, true) ∧
      ∃ d, Run.lateAnswer.get? ⟨"a.go"⟩ = some d ∧ ¬ Run.lateAnswer.IsReached ⟨"a.go"⟩ d 4 := by
  obtain ⟨hidle, hchange, hresult, hlast, hsome⟩ : Run.lateAnswer.watch.IsIdle ∧
      Run.lateAnswer.lastChange? = some (4, true) ∧
      Run.lateAnswer.resultFrom? ⟨"a.go"⟩ = some 1 ∧
      (Run.lateAnswer.lastSince? ⟨"a.go"⟩ 5).isNone = true ∧
      (Run.lateAnswer.get? ⟨"a.go"⟩).isSome = true := by decide +kernel
  obtain ⟨d, hopen⟩ := Option.isSome_iff_exists.mp hsome
  refine ⟨by decide, hidle, hchange, d, hopen, ?_⟩
  rintro (⟨-, m, hm, hlt⟩ | ⟨c, hc, -⟩)
  · rw [hresult] at hm
    cases hm
    omega
  · rw [hc] at hlast
    cases hlast

end Watch

end SmellWatch
