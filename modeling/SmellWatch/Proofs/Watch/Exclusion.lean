import SmellWatch.Proofs.Watch.Stay
/-! Two analyses of one text under way.

The store knows of one analysis of a document that is under way.  It lets go of it when
another text comes, and it may let go of it when an analysis from before the document
was opened is concluded (`Run.LetGoSince`); the queue goes on with it.  As long as no
analysis of a text is begun while one that was let go is under way, each text of an open
document has one analysis under way at most, and not longer
(`always_oneUnderWay_iff`). -/

namespace SmellWatch

namespace Watch

variable {now : Duration} {id : DocumentId} {r : Run} {e : Event} {a : Analysis} {c b : Case}
  {d : DocumentEntry} {m : Nat}

namespace Run

/-- The next step gives an open document another text. -/
def Retexts (r : Run) (now : Duration) (e : Event) (id : DocumentId) : Prop :=
  ∃ d d', r.get? id = some d ∧ (r.next now e).get? id = some d' ∧
    d.fingerprint ≠ d'.fingerprint

/-- An event concludes an analysis of a document from before it was opened last. -/
def ConcludesEarlier (r : Run) (e : Event) (id : DocumentId) : Prop :=
  ∃ t x m, r.watch.concluded? e = some (t, x) ∧ r.openSince? id = some m ∧
    ∃ c ∈ r.cases, c.ticket = some t ∧ c.document = id ∧ c.begunAt < m

/-- After a moment the store may have let go of the analysis of a document that was under
way. -/
def LetGoSince (id : DocumentId) (m : Nat) : Run → Prop
  | start _ _ _ => False
  | next r now e =>
    LetGoSince id m r ∨ (m < r.moment ∧ (r.Retexts now e id ∨ r.ConcludesEarlier e id))

/-- Of the text that an open document has, one analysis that was begun since it was opened
is under way at most. -/
def OneUnderWay (r : Run) : Prop :=
  ∀ id d, r.get? id = some d → ∀ c ∈ r.stay id, ∀ b ∈ r.stay id,
    c.text = d.fingerprint → b.text = d.fingerprint →
      c.IsUnderWay r.watch → b.IsUnderWay r.watch → c = b

/-- The last step did not queue an analysis of a text of which one that was let go is under
way. -/
def BeginsAnew : Run → Prop
  | start _ _ _ => True
  | next r now e =>
    ∀ a, begun? (r.next now e).effects = some (a, true) →
      ∀ c ∈ r.stay a.document, c.text = a.fingerprint → c.IsUnderWay r.watch →
        ¬ r.LetGoSince a.document c.begunAt

end Run

/-! ## What the store knows -/

/-- Of each text one analysis is under way at most. -/
def Apart (r : Run) (id : DocumentId) : Prop :=
  ∀ c ∈ r.stay id, ∀ b ∈ r.stay id, c.text = b.text → c.IsOpen → b.IsOpen → c = b

/-- An entry tells of an analysis of its text that is under way and was not let go. -/
def Guarded (r : Run) (id : DocumentId) : Prop :=
  ∀ d, r.get? id = some d → ∀ c ∈ r.stay id, c.text = d.fingerprint → c.IsOpen →
    ¬ r.LetGoSince id c.begunAt → d.inFlight = true

theorem begunAt_lt_of_stay (hc : c ∈ r.stay id) : c.begunAt < r.moment :=
  r.docket.past c (Run.mem_stay.mp hc).1

theorem not_isOpen_closing {t : Nat} {x : Outcome} (hevent : r.watch.concluded? e = some (t, x))
    (ht : c.ticket = some t) : ¬ (r.closing e c).IsOpen := by
  rintro ⟨-, hending⟩
  exact Run.not_concluded_of_ending ht hending hevent

/-- What is open after an analysis was concluded was so before, and is another one. -/
theorem of_isOpen_closing (h : (r.closing e c).IsOpen) : r.closing e c = c :=
  Run.eq_of_closing_ending h.2

/-- When a document gets another text, its analyses are let go. -/
theorem letGo_of_retext {content : String}
    (hnews : r.watch.store.IsNews id (Fingerprint.ofText content)) {d' : DocumentEntry}
    (hopen' : (r.next now e).get? id = some d')
    (hfp : d'.fingerprint = Fingerprint.ofText content) (hc : c ∈ r.stay id) :
    (r.next now e).LetGoSince id c.begunAt := by
  cases hd : r.get? id with
  | none =>
    rw [Run.stay_of_closed hd] at hc
    exact absurd hc List.not_mem_nil
  | some d =>
    refine .inr ⟨begunAt_lt_of_stay hc, .inl ⟨d, d', hd, hopen', ?_⟩⟩
    rw [hfp]
    exact hnews d hd

/-- A concluded analysis of an open document is one of its analyses since it was opened, or
others are let go. -/
theorem mem_stay_or_letGo {t : Nat} {x : Outcome} (hopen : r.get? id = some d)
    (hb : b ∈ r.cases) (ht : b.ticket = some t) (hdocument : b.document = id)
    (hevent : r.watch.concluded? e = some (t, x)) (hc : c ∈ r.stay id) :
    b ∈ r.stay id ∨ (r.next now e).LetGoSince id c.begunAt := by
  obtain ⟨m, hm⟩ : ∃ m, r.openSince? id = some m := by
    rw [← Option.isSome_iff_exists, Run.openSince?_isSome, hopen]
    rfl
  by_cases hle : m ≤ b.begunAt
  · exact .inl (Run.mem_stay.mpr ⟨hb, hdocument, m, hm, hle⟩)
  · exact .inr (.inr ⟨begunAt_lt_of_stay hc,
      .inr ⟨t, x, m, hevent, hm, b, hb, ht, hdocument, by omega⟩⟩)

/-- An analysis that is begun anew stands apart: one of the same text that is under way
would be known, or was let go. -/
theorem apart_begun (hapart : Apart r id) (hguarded : Guarded r id)
    (hanew : (r.next now e).BeginsAnew) (hopen : r.get? id = some d) (hfree : d.inFlight = false)
    (ha : IsOf a id d) (hbegun : begun? (r.next now e).effects = some (a, true))
    (hnew : c.text = a.fingerprint) (hstay : (r.next now e).stay id = c :: r.stay id) :
    Apart (r.next now e) id := by
  obtain ⟨rfl, hfp, -, -⟩ := ha
  have hnone : ∀ b ∈ r.stay a.document, b.text = a.fingerprint → ¬ b.IsOpen := by
    intro b hb htext hisOpen
    have hway := (Run.isUnderWay_iff (Run.mem_stay.mp hb).1).mpr hisOpen
    have := hguarded d hopen b hb (htext.trans hfp) hisOpen (hanew a hbegun b hb htext hway)
    rw [hfree] at this
    cases this
  intro x hx y hy htext hxopen hyopen
  rw [hstay] at hx hy
  rcases List.mem_cons.mp hx with rfl | hxold
  · rcases List.mem_cons.mp hy with rfl | hyold
    · rfl
    · exact absurd hyopen (hnone y hyold (htext.symm.trans hnew))
  · rcases List.mem_cons.mp hy with rfl | hyold
    · exact absurd hxopen (hnone x hxold (htext.trans hnew))
    · exact hapart x hxold y hyold htext hxopen hyopen

theorem apart_next (hapart : Apart r id) (hguarded : Guarded r id)
    (hanew : (r.next now e).BeginsAnew) : Apart (r.next now e) id := by
  have hsame : (r.next now e).stay id = r.stay id → Apart (r.next now e) id := by
    intro hstay
    unfold Apart
    rw [hstay]
    exact hapart
  have hclosing : (r.next now e).stay id = (r.stay id).map (r.closing e) →
      Apart (r.next now e) id := by
    intro hstay c' hc' b' hb' htext hcopen hbopen
    rw [hstay] at hc' hb'
    obtain ⟨c, hc, rfl⟩ := List.mem_map.mp hc'
    obtain ⟨b, hb, rfl⟩ := List.mem_map.mp hb'
    have hcsame := of_isOpen_closing hcopen
    have hbsame := of_isOpen_closing hbopen
    rw [hcsame] at htext hcopen ⊢
    rw [hbsame] at htext hbopen ⊢
    exact hapart c hc b hb htext hcopen hbopen
  cases passage r now e id with
  | away hclosed =>
    unfold Apart
    rw [Run.stay_of_closed hclosed]
    exact fun c hc => absurd hc List.not_mem_nil
  | kept _ _ _ hstay _ _ => exact hsame hstay
  | edited _ _ _ hstay _ _ => exact hsame hstay
  | replayed _ _ _ _ _ hstay _ => exact hsame hstay
  | begun d a hopen hfree ha _ _ hbegun hstay _ =>
    exact apart_begun hapart hguarded hanew hopen hfree ha hbegun rfl hstay
  | fellBack d a _ _ _ _ _ hstay _ =>
    intro c hc b hb htext hcopen hbopen
    rw [hstay] at hc hb
    rcases List.mem_cons.mp hc with rfl | hc
    · cases hcopen.1
    · rcases List.mem_cons.mp hb with rfl | hb
      · cases hbopen.1
      · exact hapart c hc b hb htext hcopen hbopen
  | answered _ _ _ _ _ _ _ _ _ _ _ _ _ hstay _ => exact hclosing hstay
  | lapsed _ _ _ _ _ _ _ _ _ _ _ _ _ hstay _ _ => exact hclosing hstay

/-- A text that comes back is not known to be analyzed: all its analyses were let go. -/
theorem guarded_retext {content : String} {d' : DocumentEntry}
    (hnews : r.watch.store.IsNews id (Fingerprint.ofText content))
    (hopen' : (r.next now e).get? id = some d')
    (hfp : d'.fingerprint = Fingerprint.ofText content)
    (hstay : (r.next now e).stay id = r.stay id) : Guarded (r.next now e) id := by
  intro d hd c hc _ _ hheld
  rw [hstay] at hc
  exact absurd (letGo_of_retext hnews hopen' hfp hc) hheld

/-- When an analysis is concluded with a result for the text, no other of the text is
known to be under way. -/
theorem guarded_answered {t : Nat} {x : Outcome} {d' : DocumentEntry} (hapart : Apart r id)
    (hb : b ∈ r.cases) (ht : b.ticket = some t) (hending : b.ending = none)
    (hdocument : b.document = id) (hevent : r.watch.concluded? e = some (t, x))
    (hopen : r.get? id = some d) (htextb : d.fingerprint = b.text)
    (hopen' : (r.next now e).get? id = some d') (hfp : d'.fingerprint = d.fingerprint)
    (hstay : (r.next now e).stay id = (r.stay id).map (r.closing e)) :
    Guarded (r.next now e) id := by
  intro d'' hd'' c' hc' htext hisOpen hnot
  rw [hopen'] at hd''
  cases hd''
  rw [hstay] at hc'
  obtain ⟨c, hc, rfl⟩ := List.mem_map.mp hc'
  have hgoesOn := hisOpen
  rw [of_isOpen_closing hgoesOn] at htext hisOpen hnot
  rcases mem_stay_or_letGo hopen hb ht hdocument hevent hc with hmem | hgone
  · have hbopen : b.IsOpen := ⟨by rw [ht]; rfl, hending⟩
    have hcb := hapart c hc b hmem (htext.trans (hfp.trans htextb)) hisOpen hbopen
    subst hcb
    exact absurd hgoesOn (not_isOpen_closing hevent ht)
  · exact absurd hgone hnot

/-- When an analysis is concluded without a result, one that goes on stays known: the entry
has its number, and not that of the other. -/
theorem guarded_lapsed {t : Nat} {x : Outcome} (hapart : Apart r id) (hguarded : Guarded r id)
    (hb : b ∈ r.cases) (ht : b.ticket = some t) (hdocument : b.document = id)
    (hevent : r.watch.concluded? e = some (t, x)) (hopen : r.get? id = some d)
    (hopen' : (r.next now e).get? id = some (DocumentStore.freed b.analysis.seq d))
    (hstay : (r.next now e).stay id = (r.stay id).map (r.closing e)) :
    Guarded (r.next now e) id := by
  intro d' hd' c' hc' htext hisOpen hnot
  rw [hopen'] at hd'
  cases hd'
  rw [hstay] at hc'
  obtain ⟨c, hc, rfl⟩ := List.mem_map.mp hc'
  have hgoesOn := hisOpen
  rw [of_isOpen_closing hgoesOn] at htext hisOpen hnot
  have hflight := hguarded d hopen c hc htext hisOpen fun h => hnot (.inl h)
  rcases mem_stay_or_letGo hopen hb ht hdocument hevent hc with hmem | hgone
  · obtain ⟨o, l, ho, hotext, hoseq, hoopen⟩ := r.owner id d hopen hflight
    have homem : o ∈ r.stay id := ho ▸ List.mem_cons_self
    have hco := hapart c hc o homem (htext.trans hotext.symm) hisOpen hoopen
    have hne : d.seq ≠ b.analysis.seq := by
      intro hseq
      have hcb := hco.trans ((r.numbered id d hopen).eq_of_seq homem hmem (by omega))
      subst hcb
      exact not_isOpen_closing hevent ht hgoesOn
    simp [DocumentStore.freed, hflight, hne]
  · exact absurd hgone hnot

theorem guarded_next (hapart : Apart r id) (hguarded : Guarded r id) :
    Guarded (r.next now e) id := by
  have hheld : ∀ c : Case, ¬ (r.next now e).LetGoSince id c.begunAt → ¬ r.LetGoSince id c.begunAt :=
    fun c h hr => h (.inl hr)
  cases passage r now e id with
  | away hclosed =>
    intro d hd
    rw [hclosed] at hd
    cases hd
  | kept d hopen hopen' hstay _ _ =>
    intro d' hd' c hc htext hisOpen hnot
    rw [hopen'] at hd'
    cases hd'
    rw [hstay] at hc
    exact hguarded _ hopen c hc htext hisOpen (hheld c hnot)
  | edited content hnews hopen' hstay _ _ =>
    exact guarded_retext hnews hopen' (DocumentStore.retext_fingerprint _ _ _) hstay
  | replayed d findings hsource hfree hopen' hstay _ =>
    rcases hsource with hopen | ⟨content, hnews, rfl⟩
    · intro d' hd' c hc htext hisOpen hnot
      rw [hopen'] at hd'
      cases hd'
      rw [hstay] at hc
      have := hguarded d hopen c hc htext hisOpen (hheld c hnot)
      rw [hfree] at this
      cases this
    · exact guarded_retext hnews hopen' (DocumentStore.retext_fingerprint _ _ _) hstay
  | begun d a _ _ _ hopen' _ _ _ _ =>
    intro d' hd' c _ _ _ _
    rw [hopen'] at hd'
    cases hd'
    rfl
  | fellBack d a findings hopen hfree _ hopen' hstay _ =>
    intro d' hd' c hc htext hisOpen hnot
    rw [hopen'] at hd'
    cases hd'
    rw [hstay] at hc
    rcases List.mem_cons.mp hc with rfl | hc
    · cases hisOpen.1
    · have := hguarded d hopen c hc htext hisOpen (hheld c hnot)
      rw [hfree] at this
      cases this
  | answered b t x d findings hb ht hending hdocument hevent hopen htext hopen' hstay _ =>
    exact guarded_answered hapart hb ht hending hdocument hevent hopen htext hopen' rfl hstay
  | lapsed b t x d hb ht hending hdocument hevent hopen _ _ hopen' hstay _ _ =>
    exact guarded_lapsed hapart hguarded hb ht hdocument hevent hopen hopen' hstay

/-- Analyses stay apart in a run that does not begin one while another of the same text,
that was let go, is under way. -/
theorem apart_and_guarded (r : Run) (h : r.Always Run.BeginsAnew) (id : DocumentId) :
    Apart r id ∧ Guarded r id := by
  induction r with
  | start options config now =>
    refine ⟨?_, fun d hd => nomatch hd⟩
    intro c hc
    exact absurd hc List.not_mem_nil
  | next r now e ih =>
    obtain ⟨hapart, hguarded⟩ := ih h.1
    exact ⟨apart_next hapart hguarded h.2, guarded_next hapart hguarded⟩

/-- What a step does that queues an analysis. -/
theorem queued_of_begun (hbegun : begun? (r.next now e).effects = some (a, true)) :
    r.watch.concluded? e = none ∧ ∃ d, r.get? a.document = some d ∧
      a.fingerprint = d.fingerprint ∧
      (r.next now e).get? a.document = some (DocumentStore.engaged d) := by
  cases r.stride now e with
  | begun id d b hopen _ hb hstore _ _ _ hevent _ hbegun' _ =>
    rw [hbegun] at hbegun'
    cases hbegun'
    obtain ⟨rfl, hfp, -, -⟩ := hb
    refine ⟨hevent, d, hopen, hfp, ?_⟩
    unfold Run.get?
    rw [hstore]
    exact DocumentStore.get?_engaged_self hopen
  | still _ _ _ _ _ _ hfx => exact absurd hbegun (hfx.not_begun a true)
  | edited _ _ _ _ _ _ _ _ _ _ hfx => exact absurd hbegun (hfx.not_begun a true)
  | replayed _ _ _ _ _ _ _ _ _ _ _ _ _ _ hfx =>
    rw [hfx] at hbegun
    cases hbegun
  | fellBack _ _ _ _ _ _ _ _ _ _ _ _ _ hfx =>
    rw [hfx] at hbegun
    cases hbegun
  | turned _ _ _ _ _ _ hfx => exact absurd hbegun (hfx.not_begun a true)
  | answered _ _ _ _ _ _ _ _ _ _ _ _ _ hfx =>
    rw [hfx] at hbegun
    cases hbegun
  | lapsed _ _ _ _ _ _ _ _ _ _ hfx => exact absurd hbegun (hfx.not_begun a true)
  | closed _ _ _ _ _ _ hnone _ =>
    rw [hbegun] at hnone
    cases hnone
  | reconfigured _ _ _ _ _ _ _ hfx => exact absurd hbegun (hfx.not_begun a true)
  | configSet _ _ _ _ _ _ hfx =>
    rw [hfx] at hbegun
    cases hbegun
  | shutDown _ _ _ _ hfx => exact absurd hbegun (hfx.not_begun a true)

theorem beginsAnew_of_oneUnderWay (h : (r.next now e).OneUnderWay) :
    (r.next now e).BeginsAnew := by
  intro a hbegun c hc htext hway
  exfalso
  obtain ⟨hevent, d, hopen, hfp, hopen'⟩ := queued_of_begun hbegun
  have hsome : ((r.next now e).get? a.document).isSome := by
    rw [hopen']
    rfl
  have hstay := Run.stay_next_of_begun hsome hbegun rfl hevent
  have hmem : ∀ b ∈ (r.next now e).stay a.document, b ∈ (r.next now e).cases :=
    fun b hb => (Run.mem_stay.mp hb).1
  have hisOpen := (Run.isUnderWay_iff (Run.mem_stay.mp hc).1).mp hway
  have hold : c ∈ (r.next now e).stay a.document := hstay ▸ List.mem_cons_of_mem _ hc
  have hnew := hstay ▸ List.mem_cons_self (l := r.stay a.document)
  have heq := h a.document _ hopen' c hold _ hnew (htext.trans hfp) hfp
    ((Run.isUnderWay_iff (hmem c hold)).mpr hisOpen)
    ((Run.isUnderWay_iff (hmem _ hnew)).mpr ⟨rfl, rfl⟩)
  have := begunAt_lt_of_stay hc
  rw [heq] at this
  exact Nat.lt_irrefl _ this

/-- The text of an open document has one analysis under way at most, throughout a run,
exactly if the run never queues an analysis of a text while one that was let go is under
way. -/
theorem always_oneUnderWay_iff (r : Run) : r.Always Run.OneUnderWay ↔ r.Always Run.BeginsAnew := by
  constructor
  · refine Run.Always.imp (fun r h => ?_) r
    cases r with
    | start options config now => trivial
    | next r now e => exact beginsAnew_of_oneUnderWay h.last
  · refine Run.Always.imp (fun r h => ?_) r
    intro id d _ c hc b hb hctext hbtext hcway hbway
    have hmem : ∀ b ∈ r.stay id, b ∈ r.cases := fun b hb => (Run.mem_stay.mp hb).1
    exact (apart_and_guarded r h id).1 c hc b hb (hctext.trans hbtext.symm)
      ((Run.isUnderWay_iff (hmem c hc)).mp hcway) ((Run.isUnderWay_iff (hmem b hb)).mp hbway)

/-- A document gets another text and its first one again while the service is asked about
that. -/
def Run.awayAndBack : Run :=
  let edited := Duration.ofMillis 600
  let quiet := Duration.ofMillis 1100
  asking.after
    [(edited, .changed ⟨"a.go"⟩ "y"), (edited, .changed ⟨"a.go"⟩ "x"),
      (quiet, .ran (.debounce ⟨"a.go"⟩ ⟨2, 3⟩ quiet))]

/-- An analysis of the text is begun again, beside the first one. -/
theorem not_oneUnderWay_awayAndBack : ¬ Run.awayAndBack.OneUnderWay := by
  intro h
  obtain ⟨htickets, hends, htexts, hentry⟩ :
      (Run.awayAndBack.stay ⟨"a.go"⟩).map (·.ticket) = [some 1, some 0] ∧
      (∀ c ∈ Run.awayAndBack.stay ⟨"a.go"⟩, c.ending.isNone = true) ∧
      (∀ c ∈ Run.awayAndBack.stay ⟨"a.go"⟩, c.text = .ofText "x") ∧
      (Run.awayAndBack.get? ⟨"a.go"⟩).map (·.fingerprint) = some (.ofText "x") := by
    decide +kernel
  obtain ⟨d, hopen, hfp⟩ := Option.map_eq_some_iff.mp hentry
  obtain ⟨c, l, hstay, hc, hl⟩ := List.map_eq_cons_iff.mp htickets
  obtain ⟨b, l', hl', hb, -⟩ := List.map_eq_cons_iff.mp hl
  have hcmem : c ∈ Run.awayAndBack.stay ⟨"a.go"⟩ := hstay ▸ List.mem_cons_self
  have hbmem : b ∈ Run.awayAndBack.stay ⟨"a.go"⟩ :=
    hstay ▸ hl' ▸ List.mem_cons_of_mem _ List.mem_cons_self
  have hway : ∀ a ∈ Run.awayAndBack.stay ⟨"a.go"⟩, a.ticket.isSome = true →
      a.IsUnderWay Run.awayAndBack.watch := by
    intro a ha hsome
    exact (Run.isUnderWay_iff (Run.mem_stay.mp ha).1).mpr
      ⟨hsome, Option.isNone_iff_eq_none.mp (hends a ha)⟩
  have hcb : c = b := h ⟨"a.go"⟩ d hopen c hcmem b hbmem ((htexts c hcmem).trans hfp.symm)
    ((htexts b hbmem).trans hfp.symm) (hway c hcmem (by rw [hc]; rfl))
    (hway b hbmem (by rw [hb]; rfl))
  rw [hcb, hb] at hc
  cases hc

end Watch

end SmellWatch
