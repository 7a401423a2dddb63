import SmellWatch.Proofs.Watch.Answers
/-! Refused keys, and who is charged with them.

A watch notes the settings whose key was refused, and asks the service no more under
them.  A run remembers of the note when it was made, which analysis made it, and whether
its document still had the text (`Run.mark?`).  Behind each note is an answer of a service
(`Run.mark_of_refused`), but it need not be the service as it is
(`always_isCharged_iff`). -/

namespace SmellWatch

namespace Watch

variable {now : Duration} {r : Run} {e : Event} {w : Watch}

/-! ## The note that a key was refused -/

/-- The note that a key was refused. -/
structure Mark where
  moment : Nat
  /-- The analysis that was refused. -/
  analysis : Analysis
  /-- Its document was open with its text when the note was made. -/
  heard : Bool

namespace Run

/-- The note that an event makes: an analysis is completed with the word that the key was
refused, and that was not known of these settings. -/
def marking? (r : Run) (e : Event) : Option Mark :=
  match r.watch.concluded? e with
  | some (t, .error (.failed (.auth _))) =>
    if r.watch.refused = some r.watch.store.config then none
    else
      (r.caseOf? t).map fun c =>
        { moment := r.moment
          analysis := c.analysis
          heard := (r.get? c.document).any (·.fingerprint = c.text) }
  | _ => none

/-- The note that is in force.  Other settings take it back. -/
def mark? : Run → Option Mark
  | start _ _ _ => none
  | next r _ e => if e.isReconfigured then none else (r.marking? e).or r.mark?

/-- The service as it is answered a call of the run that it refuses the key. -/
def ServiceRefused (r : Run) : Prop :=
  ∃ a detail, ⟨a, .error (.auth detail)⟩ ∈ r.answers ∧ a.service = r.watch.service

/-- The last step began no analysis without asking the service, or the service had refused
the key. -/
def IsCharged : Run → Prop
  | start _ _ _ => True
  | next r now e =>
    ∀ a, begun? (next r now e).effects = some (a, false) → r.ServiceRefused

/-- If the last step began an analysis without asking the service, there was a note, with
an answer of a service behind it. -/
def SkipsOnMark : Run → Prop
  | start _ _ _ => True
  | next r now e =>
    ∀ a, begun? (next r now e).effects = some (a, false) →
      ∃ m detail, r.mark? = some m ∧ ⟨m.analysis, .error (.auth detail)⟩ ∈ r.answers

/-- If the last step began an analysis without asking the service, then on a note that an
analysis of an earlier service had made only after the service as it is refused the key. -/
def HeedsOwnMark : Run → Prop
  | start _ _ _ => True
  | next r now e =>
    ∀ a, begun? (next r now e).effects = some (a, false) →
      ∃ m, r.mark? = some m ∧ (m.analysis.service ≠ r.watch.service → r.ServiceRefused)

end Run

theorem marking?_of_none (h : r.watch.concluded? e = none) : r.marking? e = none := by
  unfold Run.marking?
  rw [h]

theorem marking?_of_auth {o : Owed} {detail : String} (ho : o ∈ r.watch.owed)
    (h : r.watch.concluded? e = some (o.ticket, .error (.failed (.auth detail))))
    (hnew : ¬ r.watch.refused = some r.watch.store.config) :
    r.marking? e = some
      { moment := r.moment
        analysis := o.analysis
        heard := (r.get? o.analysis.document).any (·.fingerprint = o.analysis.fingerprint) } := by
  obtain ⟨c, hc, hca⟩ := Run.caseOf?_of_owed ho
  unfold Run.marking?
  rw [h]
  dsimp only
  rw [if_neg hnew, hc, Option.map_some, Case.document, Case.text, hca]

theorem eq_of_marking? {m : Mark} (h : r.marking? e = some m) :
    ∃ t detail c, r.watch.concluded? e = some (t, .error (.failed (.auth detail))) ∧
      ¬ r.watch.refused = some r.watch.store.config ∧ r.caseOf? t = some c ∧
      m.moment = r.moment ∧ m.analysis = c.analysis := by
  unfold Run.marking? at h
  split at h
  · rename_i t detail hevent
    split at h
    · cases h
    · rename_i hnew
      obtain ⟨c, hc, rfl⟩ := Option.map_eq_some_iff.mp h
      exact ⟨t, detail, c, hevent, hnew, hc, rfl, rfl⟩
  · cases h

/-- The analysis behind a new note was answered that the key is refused. -/
theorem answer_of_marking? {m : Mark} (h : r.marking? e = some m) :
    ∃ detail, ⟨m.analysis, .error (.auth detail)⟩ ∈ r.answers := by
  obtain ⟨t, detail, c, hevent, -, hc, -, hanalysis⟩ := eq_of_marking? h
  have hreturned : r.watch.concluded? e =
      some (t, RequestQueue.ofReturn (.error (.auth detail))) := hevent
  obtain ⟨d, hd, hheard⟩ := Run.heard_of_concluded hreturned
  rw [hc] at hd
  cases hd
  rcases hheard with hcanceled | hanswer
  · cases hcanceled
  · exact ⟨detail, hanalysis ▸ hanswer⟩

/-- After a step no key is noted as refused, or it was, or the step has made the note. -/
theorem refused_next (r : Run) (now : Duration) (e : Event) :
    (r.next now e).watch.refused = none ∨
      (e.isReconfigured = false ∧ (r.next now e).watch.refused = r.watch.refused) ∨
      (e.isReconfigured = false ∧ (r.marking? e).isSome) := by
  have hstep : (r.next now e).watch.refused = r.watch.refusedAfter e := refused_step now e r.watch
  rw [hstep]
  unfold refusedAfter
  by_cases he : e.isReconfigured = true
  · exact .inl (if_pos he)
  · rw [if_neg he]
    have he' : e.isReconfigured = false := by simpa using he
    cases hevent : r.watch.concluded? e with
    | none => exact .inr (.inl ⟨he', rfl⟩)
    | some x =>
      obtain ⟨t, o⟩ := x
      dsimp only
      unfold refusedBy
      split
      · rename_i detail
        by_cases hold : r.watch.refused = some r.watch.store.config
        · exact .inr (.inl ⟨he', hold.symm⟩)
        · obtain ⟨x, hx, rfl, -⟩ := owed_of_concluded? hevent
          exact .inr (.inr ⟨he', by rw [marking?_of_auth hx hevent hold]; rfl⟩)
      · exact .inr (.inl ⟨he', rfl⟩)

/-- While a key is noted as refused, the run has the note, and the answer behind it. -/
theorem Run.mark_of_refused (r : Run) (h : r.watch.refused ≠ none) :
    ∃ m detail, r.mark? = some m ∧ ⟨m.analysis, .error (.auth detail)⟩ ∈ r.answers := by
  induction r with
  | start options config now => exact absurd rfl h
  | next r now e ih =>
    have hkept : ∀ x ∈ r.answers, x ∈ (r.next now e).answers :=
      fun x hx => List.mem_append_right _ hx
    have hmark : e.isReconfigured = false →
        (r.next now e).mark? = (r.marking? e).or r.mark? := by
      intro he
      show (if e.isReconfigured then none else _) = _
      rw [he]
      rfl
    cases hnew : r.marking? e with
    | some m =>
      rcases refused_next r now e with hnone | ⟨he, -⟩ | ⟨he, -⟩
      · exact absurd hnone h
      all_goals
        obtain ⟨detail, hanswer⟩ := answer_of_marking? hnew
        exact ⟨m, detail, by rw [hmark he, hnew]; rfl, hkept _ hanswer⟩
    | none =>
      rcases refused_next r now e with hnone | ⟨he, hsame⟩ | ⟨-, hsome⟩
      · exact absurd hnone h
      · obtain ⟨m, detail, hm, hanswer⟩ := ih (hsame ▸ h)
        exact ⟨m, detail, by rw [hmark he, hnew, hm]; rfl, hkept _ hanswer⟩
      · rw [hnew] at hsome
        cases hsome

/-! ## Who is charged -/

theorem skipsOnMark (r : Run) : r.SkipsOnMark := by
  cases r with
  | start options config now => exact trivial
  | next r now e =>
    intro a ha
    obtain ⟨-, -, -, -, hlocal, -⟩ := Run.begins ha
    refine r.mark_of_refused ?_
    rw [hlocal.mp rfl]
    simp

theorem isCharged_iff (r : Run) : r.IsCharged ↔ r.HeedsOwnMark := by
  cases r with
  | start options config now => exact Iff.rfl
  | next r now e =>
    constructor
    · intro h a ha
      obtain ⟨m, -, hm, -⟩ := skipsOnMark (r.next now e) a ha
      exact ⟨m, hm, fun _ => h a ha⟩
    · intro h a ha
      obtain ⟨m, detail, hm, hanswer⟩ := skipsOnMark (r.next now e) a ha
      obtain ⟨m', hm', hlater⟩ := h a ha
      rw [hm] at hm'
      cases hm'
      by_cases hown : m.analysis.service = r.watch.service
      · exact ⟨m.analysis, detail, hanswer, hown⟩
      · exact hlater hown

/-- Whenever the service is not asked, some service refused the key, and that was noted
since other settings came last.  It is the service as it is, throughout a run, exactly if
the notes on which it was not asked stem from its own analyses, or it had refused the key
as well. -/
theorem always_isCharged_iff (r : Run) :
    r.SkipsOnMark ∧ (r.Always Run.IsCharged ↔ r.Always Run.HeedsOwnMark) :=
  ⟨skipsOnMark r,
    Run.Always.imp (fun x h => (isCharged_iff x).mp h.last) r,
    Run.Always.imp (fun x h => (isCharged_iff x).mpr h.last) r⟩

/-- The same settings are adopted anew while the service is asked; then the old service
says that it refuses the key, and the text is edited. -/
def Run.refusedLate : Run :=
  let settings : AnalysisSettings := { requestsPerMinute := 60, rules := ["errors"] }
  let answered := Duration.ofMillis 2500
  asking.after
    [(Duration.ofMillis 600,
        .reconfigured (.ofConfig { analysis := settings }) ⟨"e76f3a43e0a9ab77"⟩),
      (answered, .answered 0 (.returned (.error (.auth "401")))), (answered, .ran .worker),
      (answered, .ran (.completion 0)), (Duration.ofMillis 3000, .changed ⟨"a.go"⟩ "y")]

/-- The new service is not asked, though it has refused nothing. -/
theorem not_isCharged_refusedLate :
    ¬ (Run.refusedLate.leftAlone ⟨1, 2⟩ (Duration.ofMillis 3500)).IsCharged := by
  intro h
  obtain ⟨hskipped, hanswers, hservice⟩ :
      (begun? (Run.refusedLate.leftAlone ⟨1, 2⟩ (Duration.ofMillis 3500)).effects).map (·.2) =
        some false ∧
      (∀ x ∈ Run.refusedLate.answers, x.analysis.service = 0) ∧
      Run.refusedLate.watch.service = 1 := by
    decide +kernel
  obtain ⟨⟨a, remote⟩, hbegun, rfl⟩ := Option.map_eq_some_iff.mp hskipped
  obtain ⟨b, detail, hanswer, hown⟩ := h a hbegun
  have hold : b.service = 0 := hanswers _ hanswer
  rw [hservice] at hown
  omega

end Watch

end SmellWatch
