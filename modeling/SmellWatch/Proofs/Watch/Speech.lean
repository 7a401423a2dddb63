import SmellWatch.Proofs.Watch.Telling
/-! What an analysis says.

An analysis speaks when it is concluded, or when it is begun if the heuristics answer at
once (`Run.speaker?`); all else that is told was cached, or says that a document is closed
(`told_by`).  Over a whole run an analysis speaks once at most: `Spoken` tells of a case
how far it is, and `Run.spoken` that every case is one of these.  From it follows when an
analysis speaks and when it is silent (`speaks_once`). -/

namespace SmellWatch

namespace DocumentStore

/-- A store of which the flag of one document is taken back at most. -/
def LowersFlag (s : DocumentStore) (id : DocumentId) (t : DocumentStore) : Prop :=
  t = s ∨ t = s.modify id ({ · with inFlight := false })

theorem lowersFlag_finishAnalysis (s : DocumentStore) (id : DocumentId) (seq : Nat) :
    s.LowersFlag id (s.finishAnalysis id seq).2 := by
  unfold finishAnalysis
  split
  · exact .inr rfl
  · exact .inl rfl

end DocumentStore

namespace Watch

variable {now : Duration} {id : DocumentId} {r : Run} {e : Event} {c b : Case} {m : Nat}
  {findings : List Finding}

/-- An analysis was superseded, waited too long or was canceled, or the service said that
it was canceled. -/
def IsDropped (o : Outcome) : Prop :=
  o = .error .superseded ∨ o = .error .timedOut ∨ o = .error .canceled ∨
    o = .error (.failed .canceled)

instance (o : Outcome) : Decidable (IsDropped o) :=
  inferInstanceAs (Decidable (_ ∨ _ ∨ _ ∨ _))

theorem verdict_eq_dropped_iff {o : Outcome} : verdict o = .dropped ↔ IsDropped o := by
  refine ⟨verdict_dropped, ?_⟩
  rintro (rfl | rfl | rfl | rfl) <;> rfl

namespace Run

/-- The analysis that speaks in the next step, if one does, by the moment at which it was
begun: the one that is concluded, or the one that is begun. -/
def speaker? (r : Run) (now : Duration) (e : Event) : Option Nat :=
  match r.watch.concluded? e with
  | some (t, _) => (r.caseOf? t).map (·.begunAt)
  | none => (r.began? now e).map (·.begunAt)

/-- What was told for the analysis that was begun at a moment. -/
def said (m : Nat) : Run → List (DocumentId × List Finding)
  | start _ _ _ => []
  | next r now e =>
    r.said m ++ if r.speaker? now e = some m then (next r now e).told else []

/-- The run as it was at a moment. -/
def asOf (k : Nat) : Run → Run
  | start options config now => start options config now
  | next r now e => if k ≤ r.moment then r.asOf k else next r now e

/-! ## Runs as they were -/

theorem asOf_moment (r : Run) : r.asOf r.moment = r := by
  cases r with
  | start options config now => rfl
  | next r now e => exact if_neg (Nat.not_succ_le_self _)

theorem asOf_next (now : Duration) (e : Event) (h : m ≤ r.moment) :
    (r.next now e).asOf m = r.asOf m := if_pos h

/-! ## Who speaks -/

theorem said_next_of_ne (h : r.speaker? now e ≠ some m) : (r.next now e).said m = r.said m := by
  show r.said m ++ (if r.speaker? now e = some m then (r.next now e).told else []) = r.said m
  rw [if_neg h, List.append_nil]

theorem said_next_of_eq (h : r.speaker? now e = some m) :
    (r.next now e).said m = r.said m ++ (r.next now e).told := by
  show r.said m ++ (if r.speaker? now e = some m then (r.next now e).told else []) = _
  rw [if_pos h]

theorem speaker?_of_concluded {t : Nat} {x : Outcome} (hc : c ∈ r.cases) (ht : c.ticket = some t)
    (h : r.watch.concluded? e = some (t, x)) : r.speaker? now e = some c.begunAt := by
  unfold speaker?
  rw [h]
  dsimp only
  rw [caseOf?_eq_some hc ht]
  rfl

theorem speaker?_of_not_concluded (h : r.watch.concluded? e = none) :
    r.speaker? now e = (r.began? now e).map (·.begunAt) := by
  unfold speaker?
  rw [h]

theorem begunAt_of_began? (h : r.began? now e = some c) : c.begunAt = r.moment := by
  obtain ⟨a, remote, -, rfl⟩ := began?_eq_some.mp h
  rfl

/-- Who speaks is concluded or begins. -/
theorem speaker?_eq_some (h : r.speaker? now e = some m) :
    (∃ c t x, c ∈ r.cases ∧ c.ticket = some t ∧ r.watch.concluded? e = some (t, x) ∧
      c.begunAt = m) ∨ m = r.moment := by
  cases hevent : r.watch.concluded? e with
  | none =>
    rw [speaker?_of_not_concluded hevent] at h
    obtain ⟨c, hc, rfl⟩ := Option.map_eq_some_iff.mp h
    exact .inr (begunAt_of_began? hc)
  | some p =>
    obtain ⟨t, x⟩ := p
    unfold speaker? at h
    rw [hevent] at h
    obtain ⟨c, hc, rfl⟩ := Option.map_eq_some_iff.mp h
    exact .inl ⟨c, t, x, List.mem_of_find?_eq_some hc, by simpa using List.find?_some hc, rfl, rfl⟩

/-- Each moment has one case at most. -/
theorem eq_of_begunAt (hc : c ∈ r.cases) (hb : b ∈ r.cases) (h : c.begunAt = b.begunAt) :
    c = b := by
  have hnodup : (r.cases.map (·.begunAt)).Nodup :=
    List.Pairwise.map _ (fun c d (hlt : d.begunAt < c.begunAt) => Nat.ne_of_gt hlt)
      r.docket.sorted
  exact List.inj_on_of_nodup_map hnodup hc hb h

/-- A case that is not concluded does not speak, once it was begun. -/
theorem speaker?_ne (hc : c ∈ r.cases)
    (h : ∀ t x, r.watch.concluded? e = some (t, x) → c.ticket ≠ some t) :
    r.speaker? now e ≠ some c.begunAt := by
  have hpast := r.docket.past c hc
  intro hspeaks
  rcases speaker?_eq_some hspeaks with ⟨b, t, x, hb, hticket, hevent, hbc⟩ | hnew
  · have heq := eq_of_begunAt hb hc hbc
    exact h t x hevent (heq ▸ hticket)
  · omega

/-- Nothing was told for an analysis that was not begun. -/
theorem said_eq_nil {r : Run} (h : r.moment ≤ m) : r.said m = [] := by
  induction r with
  | start options config now => rfl
  | next r now e ih =>
    have hle : r.moment + 1 ≤ m := h
    rw [said_next_of_ne, ih (by omega)]
    intro hspeaks
    rcases speaker?_eq_some hspeaks with ⟨b, -, -, hb, -, -, hbm⟩ | hnew
    · have := r.docket.past b hb
      omega
    · omega

end Run

/-- Findings for a document are told that no analysis says: the document is closed, or they
are cached for it. -/
def Run.Unprompted (r : Run) (e : Event) (id : DocumentId) (findings : List Finding) : Prop :=
  (e = .closed id ∧ findings = []) ∨
    ∃ x ∈ r.watch.store.cache, x.key.document = id ∧ x.findings = findings

/-! ## What each step says for whom -/

/-- What a step tells and what it concludes or begins. -/
inductive Speech (r : Run) (now : Duration) (e : Event) : Prop
  /-- No analysis is concluded or begun. -/
  | apart (hevent : r.watch.concluded? e = none) (hbegan : r.began? now e = none)
      (htold : ∀ id findings, (id, findings) ∈ (r.next now e).told →
        r.Unprompted e id findings)
  /-- An analysis is begun and queued. -/
  | begun (c : Case) (hevent : r.watch.concluded? e = none) (hbegan : r.began? now e = some c)
      (hticket : c.ticket.isSome) (htold : (r.next now e).told = [])
  /-- An analysis is begun, and the heuristics answer at once. -/
  | atOnce (c : Case) (findings : List Finding) (hevent : r.watch.concluded? e = none)
      (hbegan : r.began? now e = some c) (hticket : c.ticket = none)
      (htold : (r.next now e).told = [(c.document, findings)])
  /-- A concluded analysis speaks; it is about the text as it is. -/
  | answered (c : Case) (t : Nat) (x : Outcome) (findings : List Finding) (hc : c ∈ r.cases)
      (hticket : c.ticket = some t) (hevent : r.watch.concluded? e = some (t, x))
      (hbegan : r.began? now e = none) (hheard : ¬ IsDropped x)
      (htold : (r.next now e).told = [(c.document, findings)])
  /-- A concluded analysis is silent: it was dropped, or its text is gone. -/
  | lapsed (c : Case) (t : Nat) (x : Outcome) (hc : c ∈ r.cases)
      (hticket : c.ticket = some t) (hevent : r.watch.concluded? e = some (t, x))
      (hbegan : r.began? now e = none)
      (hwhy : IsDropped x ∨ ∀ d, r.get? c.document = some d → d.fingerprint ≠ c.text)
      (htold : (r.next now e).told = [])
      (hstore : r.watch.store.LowersFlag c.document (r.next now e).watch.store)

theorem began?_eq_none (h : begun? (r.next now e).effects = none) : r.began? now e = none := by
  unfold Run.began?
  rw [show begun? (r.watch.step now e).2 = none from h]
  rfl

/-- A step that begins and concludes and tells nothing. -/
theorem speech_of_tacit (hevent : r.watch.concluded? e = none)
    (hfx : Tacit (r.next now e).effects) : Speech r now e := by
  refine .apart hevent (began?_eq_none hfx.1) fun id findings hin => ?_
  rw [told_of_not hfx.2] at hin
  exact absurd hin List.not_mem_nil

theorem not_isDropped_of_heard {o : Outcome}
    (h : (∃ raw, o = .ok raw) ∨ ∃ x, verdict o = .failed x) : ¬ IsDropped o := by
  intro hdropped
  rw [← verdict_eq_dropped_iff] at hdropped
  rcases h with ⟨raw, rfl⟩ | ⟨x, hx⟩
  · cases hdropped
  · rw [hx] at hdropped
    cases hdropped

/-- Every step is one of these. -/
theorem speech (r : Run) (now : Duration) (e : Event) : Speech r now e := by
  cases r.stride now e with
  | still _ _ _ _ hevent _ hfx => exact speech_of_tacit hevent hfx
  | edited _ _ _ _ _ _ _ _ hevent _ hfx => exact speech_of_tacit hevent hfx
  | replayed doc s d gs hreads _ _ hcached _ _ _ _ hevent _ hfx =>
    refine .apart hevent (began?_eq_none (by rw [hfx, begun?_published])) fun id findings hin => ?_
    obtain ⟨rfl, rfl⟩ := eq_of_told_single hfx hin
    obtain ⟨_, x, -, hx, hkey, hfindings⟩ := getCached?_eq_some hcached
    rw [cache_of_reads hreads] at hx
    exact .inr ⟨x, hx, by rw [hkey], hfindings⟩
  | begun doc d a _ _ _ _ _ _ _ hevent _ hbegun htells =>
    exact .begun _ hevent (Run.began?_eq_some.mpr ⟨a, true, hbegun, rfl⟩) rfl (told_of_not htells)
  | fellBack doc d a findings _ _ ha _ _ _ _ hevent _ hfx =>
    have hbegun : begun? (r.next now e).effects = some (a, false) := by
      rw [hfx]
      rfl
    refine .atOnce _ findings hevent (Run.began?_eq_some.mpr ⟨a, false, hbegun, rfl⟩) rfl ?_
    unfold Run.told
    rw [hfx]
    obtain ⟨rfl, -⟩ := ha
    rfl
  | turned _ _ _ _ hevent _ hfx => exact speech_of_tacit hevent hfx
  | answered o outcome d findings hfound houtcome _ _ _ _ _ _ hevent hfx hlocal =>
    have ho := List.mem_of_find?_eq_some hfound
    obtain ⟨c, hc, hct, hca, -⟩ := r.docket.caseOfOwed o ho
    have hconcluded := concluded?_completion hfound houtcome
    rw [← hevent] at hconcluded
    have hdocument : o.analysis.document = c.document := congrArg Analysis.document hca.symm
    refine .answered c o.ticket outcome findings hc hct hconcluded
      (began?_eq_none (by rw [hfx, begun?_published]))
      (not_isDropped_of_heard (hlocal.imp_right fun ⟨x, hx, _⟩ => ⟨x, hx⟩)) ?_
    rw [← hdocument]
    exact told_of_published hfx
  | lapsed o outcome hfound houtcome hwhy hstore _ _ _ hevent hfx =>
    have ho := List.mem_of_find?_eq_some hfound
    obtain ⟨c, hc, hct, hca, -⟩ := r.docket.caseOfOwed o ho
    have hconcluded := concluded?_completion hfound houtcome
    rw [← hevent] at hconcluded
    have hdocument : o.analysis.document = c.document := congrArg Analysis.document hca.symm
    have htext : o.analysis.fingerprint = c.text := congrArg Analysis.fingerprint hca.symm
    refine .lapsed c o.ticket outcome hc hct hconcluded (began?_eq_none hfx.1) ?_
      (told_of_not hfx.2) ?_
    · rw [verdict_eq_dropped_iff, hdocument, htext] at hwhy
      exact hwhy
    · rw [hstore, ← hdocument]
      exact DocumentStore.lowersFlag_finishAnalysis _ _ _
  | closed doc _ _ _ _ hevent hbegun =>
    subst hevent
    refine .apart rfl (began?_eq_none hbegun) fun id findings hin => ?_
    rw [told_of_closed] at hin
    cases List.mem_singleton.mp hin
    exact .inl ⟨rfl, rfl⟩
  | reconfigured _ _ _ _ _ _ hevent hfx =>
    exact speech_of_tacit (concluded?_of_isReconfigured hevent) hfx
  | configSet _ _ _ _ _ hevent hfx => exact speech_of_tacit (hevent ▸ rfl) (hfx ▸ tacit_nil)
  | shutDown _ _ _ hevent hfx => exact speech_of_tacit (hevent ▸ rfl) hfx

/-- What is told an analysis says that is concluded or begun; or it is cached, or says that
a document is closed. -/
theorem told_by (r : Run) (now : Duration) (e : Event) (id : DocumentId)
    (findings : List Finding) (hin : (id, findings) ∈ (r.next now e).told) :
    (∃ c, (c ∈ r.cases ∨ r.began? now e = some c) ∧ c.document = id ∧
      r.speaker? now e = some c.begunAt) ∨ r.Unprompted e id findings := by
  cases speech r now e with
  | apart _ _ htold => exact .inr (htold id findings hin)
  | begun _ _ _ _ htold =>
    rw [htold] at hin
    exact absurd hin List.not_mem_nil
  | atOnce c gs hevent hbegan _ htold =>
    rw [htold] at hin
    cases List.mem_singleton.mp hin
    refine .inl ⟨c, .inr hbegan, rfl, ?_⟩
    rw [Run.speaker?_of_not_concluded hevent, hbegan]
    rfl
  | answered c t x gs hc hticket hevent _ _ htold =>
    rw [htold] at hin
    cases List.mem_singleton.mp hin
    exact .inl ⟨c, .inl hc, rfl, Run.speaker?_of_concluded hc hticket hevent⟩
  | lapsed _ _ _ _ _ _ _ _ htold _ =>
    rw [htold] at hin
    exact absurd hin List.not_mem_nil

/-! ## Over a whole run -/

/-- How far an analysis is, and what was told for it. -/
inductive Spoken (r : Run) (c : Case) : Prop
  /-- The heuristics answered at once. -/
  | atOnce (findings : List Finding) (hticket : c.ticket = none) (hending : c.ending = none)
      (hsaid : r.said c.begunAt = [(c.document, findings)])
  | notYet (hticket : c.ticket.isSome) (hending : c.ending = none)
      (hsaid : r.said c.begunAt = [])
  | answered (x : Ending) (findings : List Finding) (hticket : c.ticket.isSome)
      (hending : c.ending = some x) (hheard : ¬ IsDropped x.outcome)
      (hsaid : r.said c.begunAt = [(c.document, findings)])
  | lapsed (x : Ending) (hticket : c.ticket.isSome) (hending : c.ending = some x)
      (hpast : x.moment < r.moment)
      (hwhy : IsDropped x.outcome ∨
        ∀ d, (r.asOf x.moment).get? c.document = some d → d.fingerprint ≠ c.text)
      (hsaid : r.said c.begunAt = [])
      (hstore : (r.asOf x.moment).watch.store.LowersFlag c.document
        (r.asOf (x.moment + 1)).watch.store)

/-- An analysis that is neither concluded nor begun is as far as before. -/
theorem Spoken.keep (h : Spoken r c) (hsilent : r.speaker? now e ≠ some c.begunAt) :
    Spoken (r.next now e) c := by
  have hsaid := Run.said_next_of_ne hsilent
  cases h with
  | atOnce findings hticket hending h => exact .atOnce findings hticket hending (hsaid.trans h)
  | notYet hticket hending h => exact .notYet hticket hending (hsaid.trans h)
  | answered x findings hticket hending hheard h =>
    exact .answered x findings hticket hending hheard (hsaid.trans h)
  | lapsed x hticket hending hpast hwhy h hstore =>
    refine .lapsed x hticket hending (Nat.lt_succ_of_lt hpast) ?_ (hsaid.trans h) ?_
    · rw [Run.asOf_next now e (Nat.le_of_lt hpast)]
      exact hwhy
    · rw [Run.asOf_next now e (Nat.le_of_lt hpast), Run.asOf_next now e hpast]
      exact hstore

/-- Nothing was told for an analysis that has not ended and is in the queue. -/
theorem Spoken.said_eq_nil (h : Spoken r c) {t : Nat} (ht : c.ticket = some t)
    (hending : c.ending = none) : r.said c.begunAt = [] := by
  cases h with
  | atOnce _ hticket _ _ =>
    rw [hticket] at ht
    cases ht
  | notYet _ _ hsaid => exact hsaid
  | answered _ _ _ hended _ _ =>
    rw [hended] at hending
    cases hending
  | lapsed _ _ hended _ _ _ _ =>
    rw [hended] at hending
    cases hending

/-- What is told when an analysis is concluded is all that is told for it. -/
theorem Spoken.said_next (h : Spoken r c) (hc : c ∈ r.cases) {t : Nat} {x : Outcome}
    (ht : c.ticket = some t) (hevent : r.watch.concluded? e = some (t, x)) :
    (r.next now e).said c.begunAt = (r.next now e).told := by
  obtain ⟨o, ho, rfl, -⟩ := owed_of_concluded? hevent
  have hending := (r.docket.eq_analysis ho hc ht).2
  rw [Run.said_next_of_eq (Run.speaker?_of_concluded hc ht hevent), h.said_eq_nil ht hending,
    List.nil_append]

/-- What becomes of the analyses that were begun before. -/
theorem Spoken.next (h : Spoken r c) (hc : c ∈ r.cases) (now : Duration) (e : Event) :
    Spoken (r.next now e) (r.closing e c) := by
  have hkeep : (∀ t x, r.watch.concluded? e = some (t, x) → c.ticket ≠ some t) →
      Spoken (r.next now e) (r.closing e c) := by
    intro hother
    rw [Run.closing_of_ne hother]
    exact h.keep (Run.speaker?_ne hc hother)
  have hnone : r.watch.concluded? e = none → Spoken (r.next now e) (r.closing e c) := by
    intro hevent
    refine hkeep fun t x hx => ?_
    rw [hevent] at hx
    cases hx
  have hother : ∀ {b t x}, b ∈ r.cases → b.ticket = some t →
      r.watch.concluded? e = some (t, x) → c ≠ b → Spoken (r.next now e) (r.closing e c) := by
    intro b t x hb hticket hevent hcb
    refine hkeep fun u y hy hcu => ?_
    rw [hevent] at hy
    cases hy
    exact hcb (r.docket.unique c hc b hb t hcu hticket)
  cases speech r now e with
  | apart hevent _ _ => exact hnone hevent
  | begun _ hevent _ _ _ => exact hnone hevent
  | atOnce _ _ hevent _ _ _ => exact hnone hevent
  | answered b t x findings hb hticket hevent _ hheard htold =>
    by_cases hcb : c = b
    · subst hcb
      rw [Run.closing_of_concluded hevent hticket]
      exact .answered ⟨r.moment, x⟩ findings (by rw [hticket]; rfl) rfl hheard
        ((h.said_next hc hticket hevent).trans htold)
    · exact hother hb hticket hevent hcb
  | lapsed b t x hb hticket hevent _ hwhy htold hstore =>
    by_cases hcb : c = b
    · subst hcb
      rw [Run.closing_of_concluded hevent hticket]
      refine .lapsed ⟨r.moment, x⟩ (by rw [hticket]; rfl) rfl (Nat.lt_succ_self _) ?_
        ((h.said_next hc hticket hevent).trans htold) ?_
      · rw [Run.asOf_next now e (Nat.le_refl _), Run.asOf_moment]
        exact hwhy
      · rw [Run.asOf_next now e (Nat.le_refl _), Run.asOf_moment,
          show (r.next now e).asOf (r.moment + 1) = _ from (r.next now e).asOf_moment]
        exact hstore
    · exact hother hb hticket hevent hcb

/-- An analysis that is begun speaks at once if it does not go to the queue. -/
theorem spoken_of_began (hbegan : r.began? now e = some c) : Spoken (r.next now e) c := by
  have hmoment := Run.begunAt_of_began? hbegan
  have hpast : r.said c.begunAt = [] := Run.said_eq_nil (Nat.le_of_eq hmoment.symm)
  have hending : c.ending = none := by
    obtain ⟨a, remote, -, rfl⟩ := Run.began?_eq_some.mp hbegan
    rfl
  have hsaid : r.watch.concluded? e = none →
      (r.next now e).said c.begunAt = (r.next now e).told := by
    intro hevent
    have hspeaks : r.speaker? now e = some c.begunAt := by
      rw [Run.speaker?_of_not_concluded hevent, hbegan]
      rfl
    rw [Run.said_next_of_eq hspeaks, hpast, List.nil_append]
  cases speech r now e with
  | apart _ hnone _ =>
    rw [hnone] at hbegan
    cases hbegan
  | begun b hevent hb hticket htold =>
    rw [hbegan] at hb
    cases hb
    exact .notYet hticket hending ((hsaid hevent).trans htold)
  | atOnce b findings hevent hb hticket htold =>
    rw [hbegan] at hb
    cases hb
    exact .atOnce findings hticket hending ((hsaid hevent).trans htold)
  | answered _ _ _ _ _ _ _ hnone _ _ =>
    rw [hnone] at hbegan
    cases hbegan
  | lapsed _ _ _ _ _ _ hnone _ _ _ =>
    rw [hnone] at hbegan
    cases hbegan

theorem Run.spoken (r : Run) : ∀ c ∈ r.cases, Spoken r c := by
  induction r with
  | start options config now => exact fun c hc => absurd hc List.not_mem_nil
  | next r now e ih =>
    intro c hc
    rcases Run.mem_cases_next.mp hc with hnew | ⟨b, hb, rfl⟩
    · exact spoken_of_began hnew
    · exact (ih b hb).next hb now e

/-- The text of an analysis is that of an entry if the fingerprints are the same; so it is
if the texts are. -/
theorem fingerprint_eq_of_content {r₀ : Run} {d : DocumentEntry} (hc : c ∈ r.cases)
    (hopen : r₀.get? id = some d) (h : d.content = c.analysis.content) :
    d.fingerprint = c.text := by
  have htext : c.text = Fingerprint.ofText c.analysis.content := (r.printed.analyses c hc).2
  rw [(r₀.printed.entries.of_get? hopen).2, htext, h]

/-- An analysis speaks once at most, in a whole run.  If the heuristics answer at once, or
if it ends with a result or a failure while its document is open with its text, it speaks;
if it is dropped, it is silent, and its end takes back that it was under way at most. -/
theorem speaks_once (r : Run) (c : Case) (hc : c ∈ r.cases) :
    (r.said c.begunAt).length ≤ 1 ∧
    (c.ticket = none → ∃ findings, r.said c.begunAt = [(c.document, findings)]) ∧
    ∀ x, c.ending = some x →
      (¬ IsDropped x.outcome →
        (∃ d, (r.asOf x.moment).get? c.document = some d ∧ d.content = c.analysis.content) →
        ∃ findings, r.said c.begunAt = [(c.document, findings)]) ∧
      (IsDropped x.outcome → r.said c.begunAt = [] ∧
        (r.asOf x.moment).watch.store.LowersFlag c.document
          (r.asOf (x.moment + 1)).watch.store) := by
  cases r.spoken c hc with
  | atOnce findings hticket hending hsaid =>
    refine ⟨by simp [hsaid], fun _ => ⟨findings, hsaid⟩, fun x hx => ?_⟩
    rw [hending] at hx
    cases hx
  | notYet hticket hending hsaid =>
    refine ⟨by simp [hsaid], fun hnone => ?_, fun x hx => ?_⟩
    · rw [hnone] at hticket
      cases hticket
    · rw [hending] at hx
      cases hx
  | answered y findings hticket hending hheard hsaid =>
    refine ⟨by simp [hsaid], fun _ => ⟨findings, hsaid⟩, fun x hx => ?_⟩
    rw [hending] at hx
    cases hx
    exact ⟨fun _ _ => ⟨findings, hsaid⟩, fun hdropped => absurd hdropped hheard⟩
  | lapsed y hticket hending _ hwhy hsaid hstore =>
    refine ⟨by simp [hsaid], fun hnone => ?_, fun x hx => ?_⟩
    · rw [hnone] at hticket
      cases hticket
    · rw [hending] at hx
      cases hx
      refine ⟨fun hheard ⟨d, hopen, hcontent⟩ => ?_, fun _ => ⟨hsaid, hstore⟩⟩
      exact absurd (fingerprint_eq_of_content hc hopen hcontent)
        (hwhy.resolve_left hheard d hopen)

/-- The service answers in time, and the analysis is completed. -/
def Run.heard : Run := answeredInTime.next (Duration.ofMillis 800) (.ran (.completion 0))

theorem speaks_once_heard :
    (∃ c ∈ Run.heard.cases, ∃ findings, Run.heard.said c.begunAt = [(⟨"a.go"⟩, findings)]) ∧
    ∃ c ∈ Run.unheard.cases, c.ending.isSome ∧ Run.unheard.said c.begunAt = [] := by
  constructor
  · obtain ⟨c, hc, h⟩ : ∃ c ∈ Run.heard.cases, (decide (c.document = ⟨"a.go"⟩) &&
        c.ending.any fun x => !decide (IsDropped x.outcome) &&
          ((Run.heard.asOf x.moment).get? c.document).any
            (·.content = c.analysis.content)) = true := by
      rw [← List.any_eq_true]
      decide +kernel
    simp only [Bool.and_eq_true, decide_eq_true_eq, Option.any_eq_true, Bool.not_eq_true',
      decide_eq_false_iff_not] at h
    obtain ⟨hdocument, x, hx, hheard, hopen⟩ := h
    rw [← hdocument]
    exact ⟨c, hc, ((speaks_once _ c hc).2.2 x hx).1 hheard hopen⟩
  · obtain ⟨c, hc, h⟩ : ∃ c ∈ Run.unheard.cases,
        (c.ending.any fun x => decide (IsDropped x.outcome)) = true := by
      rw [← List.any_eq_true]
      decide +kernel
    simp only [Option.any_eq_true, decide_eq_true_eq] at h
    obtain ⟨x, hx, hdropped⟩ := h
    exact ⟨c, hc, by rw [hx]; rfl, (((speaks_once _ c hc).2.2 x hx).2 hdropped).1⟩

end Watch

end SmellWatch
