import SmellWatch.Proofs.Watch.Passage
/-! The analyses of a document since it was opened.

They are numbered upward, and the entry of the document has the number of the last one
(`Run.numbered`).  When the entry says that an analysis is under way, the last one is,
and it is about the text as it is (`Run.owner`).  So no document says so when nothing is
under way (`isUnderWay_of_inFlight`). -/

namespace SmellWatch

namespace Watch

variable {now : Duration} {id : DocumentId} {r : Run} {e : Event} {c b : Case}
  {d : DocumentEntry} {n : Nat}

/-! ## Cases that stay open -/

/-- When one case is concluded, all others stay as they are. -/
theorem Run.closing_of_other {t : Nat} {x : Outcome} (hb : b ∈ r.cases) (hbt : b.ticket = some t)
    (hevent : r.watch.concluded? e = some (t, x)) (hc : c ∈ r.cases) (hcb : c ≠ b) :
    r.closing e c = c := by
  refine Run.closing_of_ne fun u y hy hcu => ?_
  rw [hevent] at hy
  cases hy
  exact hcb (r.docket.unique c hc b hb t hcu hbt)

/-! ## Numbers -/

/-- The analyses of a document are numbered upward, to this number at most. -/
structure Run.Numbered (r : Run) (id : DocumentId) (n : Nat) : Prop where
  sorted : (r.stay id).Pairwise fun c b => b.analysis.seq < c.analysis.seq
  bounded : ∀ c ∈ r.stay id, c.analysis.seq ≤ n

namespace Run.Numbered

theorem of_closed (h : r.get? id = none) (n : Nat) : r.Numbered id n where
  sorted := by
    rw [Run.stay_of_closed h]
    exact .nil
  bounded := by
    rw [Run.stay_of_closed h]
    simp

theorem retext {content : String} (h : ∀ d, r.get? id = some d → r.Numbered id d.seq) :
    r.Numbered id (DocumentStore.retext id content (r.get? id)).seq := by
  cases hd : r.get? id with
  | none => exact .of_closed hd _
  | some d => exact h d hd

variable {r' : Run}

theorem of_eq (h : r.Numbered id n) (hstay : r'.stay id = r.stay id) : r'.Numbered id n where
  sorted := hstay ▸ h.sorted
  bounded := hstay ▸ h.bounded

theorem cons (h : r.Numbered id n) (hc : c.analysis.seq = n + 1)
    (hstay : r'.stay id = c :: r.stay id) : r'.Numbered id (n + 1) where
  sorted := by
    rw [hstay]
    refine List.pairwise_cons.mpr ⟨fun b hb => ?_, h.sorted⟩
    have := h.bounded b hb
    omega
  bounded := by
    intro b hb
    rw [hstay] at hb
    rcases List.mem_cons.mp hb with rfl | hb
    · omega
    · have := h.bounded b hb
      omega

theorem map_closing (h : r.Numbered id n) (hstay : r'.stay id = (r.stay id).map (r.closing e)) :
    r'.Numbered id n where
  sorted := by
    rw [hstay]
    refine List.Pairwise.map _ (fun c b hcb => ?_) h.sorted
    rw [Run.closing_analysis, Run.closing_analysis]
    exact hcb
  bounded := by
    intro c hc
    rw [hstay] at hc
    obtain ⟨b, hb, rfl⟩ := List.mem_map.mp hc
    rw [Run.closing_analysis]
    exact h.bounded b hb

/-- Each number is of one analysis. -/
theorem eq_of_seq (h : r.Numbered id n) (hc : c ∈ r.stay id) (hb : b ∈ r.stay id)
    (hcb : c.analysis.seq = b.analysis.seq) : c = b := by
  have hnodup : ((r.stay id).map (·.analysis.seq)).Nodup :=
    List.Pairwise.map _ (fun c b (hlt : b.analysis.seq < c.analysis.seq) => Nat.ne_of_gt hlt)
      h.sorted
  exact List.inj_on_of_nodup_map hnodup hc hb hcb

end Run.Numbered

theorem Run.numbered (r : Run) (id : DocumentId) :
    ∀ d, r.get? id = some d → r.Numbered id d.seq := by
  induction r with
  | start options config now =>
    intro d hd
    cases hd
  | next r now e ih =>
    intro d' hd'
    cases passage r now e id with
    | away hclosed =>
      rw [hclosed] at hd'
      cases hd'
    | kept d hopen hopen' hstay _ _ =>
      rw [hopen'] at hd'
      cases hd'
      exact (ih _ hopen).of_eq hstay
    | edited content _ hopen' hstay _ _ =>
      rw [hopen'] at hd'
      cases hd'
      exact (Numbered.retext ih).of_eq hstay
    | replayed d findings hsource _ hopen' hstay _ =>
      rw [hopen'] at hd'
      cases hd'
      rcases hsource with hopen | ⟨content, -, rfl⟩
      · exact (ih _ hopen).of_eq hstay
      · exact (Numbered.retext ih).of_eq hstay
    | begun d a hopen _ ha hopen' _ _ hstay _ =>
      rw [hopen'] at hd'
      cases hd'
      exact (ih d hopen).cons ha.2.2.2 hstay
    | fellBack d a findings hopen _ ha hopen' hstay _ =>
      rw [hopen'] at hd'
      cases hd'
      exact (ih d hopen).cons ha.2.2.2 hstay
    | answered c t x d findings _ _ _ _ _ hopen _ hopen' hstay _ =>
      rw [hopen'] at hd'
      cases hd'
      exact (ih d hopen).map_closing hstay
    | lapsed c t x d _ _ _ _ _ hopen _ _ hopen' hstay _ _ =>
      rw [hopen'] at hd'
      cases hd'
      exact (ih d hopen).map_closing hstay

/-! ## The analysis that is under way -/

/-- An entry that says so has its last analysis under way, about the text as it is. -/
theorem Run.owner (r : Run) (id : DocumentId) :
    ∀ d, r.get? id = some d → d.inFlight = true →
      ∃ c rest, r.stay id = c :: rest ∧ c.text = d.fingerprint ∧ c.analysis.seq = d.seq ∧
        c.IsOpen := by
  induction r with
  | start options config now =>
    intro d hd
    cases hd
  | next r now e ih =>
    intro d' hd' hflight
    cases passage r now e id with
    | away hclosed =>
      rw [hclosed] at hd'
      cases hd'
    | kept d hopen hopen' hstay _ _ =>
      rw [hopen'] at hd'
      cases hd'
      rw [hstay]
      exact ih _ hopen hflight
    | edited content _ hopen' _ _ _ =>
      rw [hopen'] at hd'
      cases hd'
      cases hd : r.get? id <;> rw [hd] at hflight <;> cases hflight
    | replayed d findings _ _ hopen' _ _ =>
      rw [hopen'] at hd'
      cases hd'
      cases hflight
    | begun d a _ _ ha hopen' _ _ hstay _ =>
      rw [hopen'] at hd'
      cases hd'
      exact ⟨_, _, hstay, ha.2.1, ha.2.2.2, rfl, rfl⟩
    | fellBack d a findings _ _ _ hopen' _ _ =>
      rw [hopen'] at hd'
      cases hd'
      cases hflight
    | answered c t x d findings _ _ _ _ _ _ _ hopen' _ _ =>
      rw [hopen'] at hd'
      cases hd'
      cases hflight
    | lapsed c t x d hc ht hending _ hevent hopen _ _ hopen' hstay _ _ =>
      rw [hopen'] at hd'
      cases hd'
      obtain ⟨hflight, hne⟩ : d.inFlight = true ∧ d.seq ≠ c.analysis.seq := by
        simpa [DocumentStore.freed] using hflight
      obtain ⟨b, rest, hb, htext, hseq, hisOpen⟩ := ih d hopen hflight
      have hmem : b ∈ r.stay id := hb ▸ List.mem_cons_self
      have hsame : r.closing e b = b := by
        refine Run.closing_of_other hc ht hevent (Run.mem_stay.mp hmem).1 ?_
        rintro rfl
        exact hne hseq.symm
      refine ⟨b, rest.map (r.closing e), ?_, htext, hseq, hisOpen⟩
      rw [hstay, hb, List.map_cons, hsame]

/-- An entry that says that an analysis is under way has one: of its number, of its text,
begun since the document was opened.  When none is under way, no entry says so. -/
theorem isUnderWay_of_inFlight (r : Run) (id : DocumentId) :
    (∀ d, r.get? id = some d → d.inFlight = true →
      ∃ c ∈ r.stay id, c.analysis.seq = d.seq ∧ c.text = d.fingerprint ∧
        c.IsUnderWay r.watch) ∧
    ((∀ t, ¬ r.watch.IsUnderWay t) → ∀ d, r.get? id = some d → d.inFlight = false) := by
  have howned : ∀ d, r.get? id = some d → d.inFlight = true →
      ∃ c ∈ r.stay id, c.analysis.seq = d.seq ∧ c.text = d.fingerprint ∧
        c.IsUnderWay r.watch := by
    intro d hopen hflight
    obtain ⟨c, rest, hstay, htext, hseq, hisOpen⟩ := r.owner id d hopen hflight
    have hmem : c ∈ r.stay id := hstay ▸ List.mem_cons_self
    exact ⟨c, hmem, hseq, htext, (Run.isUnderWay_iff (Run.mem_stay.mp hmem).1).mpr hisOpen⟩
  refine ⟨howned, fun hnone d hopen => ?_⟩
  by_contra hflight
  obtain ⟨c, -, -, -, t, -, hway⟩ := howned d hopen (by simpa using hflight)
  exact hnone t hway

theorem isUnderWay_of_inFlight_asking :
    (∃ c ∈ Run.asking.stay ⟨"a.go"⟩, c.analysis.seq = 1 ∧ c.text = Fingerprint.ofText "x" ∧
      c.IsUnderWay Run.asking.watch) ∧
    ∃ d, Run.unheard.get? ⟨"a.go"⟩ = some d ∧ d.inFlight = false := by
  constructor
  · obtain ⟨hflight, hseq, htext⟩ :
        (Run.asking.get? ⟨"a.go"⟩).map (·.inFlight) = some true ∧
        (Run.asking.get? ⟨"a.go"⟩).map (·.seq) = some 1 ∧
        (Run.asking.get? ⟨"a.go"⟩).map (·.fingerprint) = some (Fingerprint.ofText "x") := by
      decide +kernel
    obtain ⟨d, hopen, hflight⟩ := Option.map_eq_some_iff.mp hflight
    rw [hopen, Option.map_some, Option.some.injEq] at hseq htext
    obtain ⟨c, hc, hcseq, hctext, hway⟩ := (isUnderWay_of_inFlight _ _).1 d hopen hflight
    exact ⟨c, hc, hcseq.trans hseq, hctext.trans htext, hway⟩
  · obtain ⟨hidle, hsome⟩ : Run.unheard.watch.IsIdle ∧
        (Run.unheard.get? ⟨"a.go"⟩).isSome = true := by decide +kernel
    obtain ⟨d, hopen⟩ := Option.isSome_iff_exists.mp hsome
    exact ⟨d, hopen, (isUnderWay_of_inFlight _ _).2 hidle.not_isUnderWay d hopen⟩

end Watch

end SmellWatch
