import SmellWatch.Proofs.Heuristics
import SmellWatch.Proofs.Watch.Refusals
/-! The warning that a key was refused.

The warning goes in front of what the heuristics find, when the note is made and at no
other time (`warns_iff`).  So it is told once for a note if the document of the refused
analysis still had its text, and never otherwise (`Run.warned`).  Whoever is not asked has
been warned about, throughout a run, exactly if the notes on which the service was not
asked were heard (`warnsOnce_and_always_isWarned_iff`). -/

namespace SmellWatch

namespace Watch

variable {now : Duration} {r : Run} {e : Event} {w : Watch} {fx : List Effect} {f : Finding}

/-! ## Warnings in a run -/

/-- The warning that a key was refused. -/
def isWarning (f : Finding) : Bool :=
  f.id = noticeId ∧ f.title = "Remote analysis authentication failed" ∧ f.severity = .warning

/-- The warning is among the findings that are told. -/
def Effect.warns : Effect → Bool
  | .published _ findings => findings.any isWarning
  | _ => false

namespace Run

/-- The last step told what was found without the service, if anything: an analysis had
failed, or the service was not asked. -/
def standsIn : Run → Bool
  | start _ _ _ => false
  | next r now e =>
    match r.watch.concluded? e with
    | some (_, .ok _) => false
    | some (_, .error _) => true
    | none => (begun? (next r now e).effects).any fun x => !x.2

/-- The watch warned in the last step.  What a service found does not count, whatever it
looks like. -/
def warns (r : Run) : Bool := r.standsIn && r.effects.any Effect.warns

/-- The moments at which the watch warned, the latest first. -/
def warnings : Run → List Nat
  | start _ _ _ => []
  | next r now e => if (next r now e).warns then r.moment :: r.warnings else r.warnings

/-- The warnings since a note was made. -/
def warningsSince (r : Run) (m : Mark) : List Nat := r.warnings.filter (m.moment ≤ ·)

/-- The watch warned once at most since the note that is in force was made. -/
def WarnsOnce (r : Run) : Prop := ∀ m, r.mark? = some m → (r.warningsSince m).length ≤ 1

/-- If the last step began an analysis without asking the service, the watch had warned
since the note was made. -/
def IsWarned : Run → Prop
  | start _ _ _ => True
  | next r now e =>
    ∀ a, begun? (next r now e).effects = some (a, false) →
      ∃ m, r.mark? = some m ∧ r.warningsSince m ≠ []

/-- If the last step began an analysis without asking the service, then on a note that was
made while the refused analysis was about the text as it was. -/
def HeedsHeardMark : Run → Prop
  | start _ _ _ => True
  | next r now e =>
    ∀ a, begun? (next r now e).effects = some (a, false) →
      ∃ m, r.mark? = some m ∧ m.heard = true

end Run

/-! ## Findings that are no warnings -/

theorem not_isWarning_of_ruled (h : Heuristics.Ruled f) : isWarning f = false := by
  obtain ⟨rule, line, text, rfl⟩ := h
  have htitle : rule.title ≠ "Remote analysis authentication failed" := by
    cases rule <;> decide
  simp [isWarning, Heuristics.Rule.at_, htitle]

/-- The heuristics never find the warning. -/
theorem any_isWarning_scan (options : WatchOptions) (id : DocumentId) (content : String) :
    (options.filter (Heuristics.scan id content)).any isWarning = false := by
  rw [List.any_eq_false]
  intro f hf
  have hscan := (List.mem_filter.mp hf).1
  simp [not_isWarning_of_ruled (Heuristics.ruled_scan id content f hscan)]

/-- The notice about a failure is the warning exactly if the key was refused and that was
not known of the settings. -/
theorem any_isWarning_lead (x : RemoteError) (w : Watch) :
    (w.noticeFor x).1.toList.any isWarning = true ↔
      (∃ detail, x = .auth detail) ∧ ¬ w.refused = some w.store.config := by
  cases x with
  | auth detail =>
    by_cases h : w.refused = some w.store.config
    · simp [noticeFor, h]
    · simp only [noticeFor, if_neg h]
      simp [h, isWarning, notice, Finding.basic, Finding.withCategory, Finding.withConfidence,
        Finding.withRange]
  | rateLimited _ => simp [noticeFor]
  | canceled => simp [noticeFor]
  | _ =>
    simp [noticeFor, isWarning, notice, Finding.basic, Finding.withCategory,
      Finding.withConfidence, Finding.withRange]

/-! ## When the watch warns -/

/-- A refused key is heard of as a failure, and only a refused key as this one. -/
theorem verdict_auth {y : QueueError RemoteError} {detail : String} :
    verdict (.error y) = .failed (.auth detail) ↔ y = .failed (.auth detail) := by
  constructor
  · intro h
    cases y with
    | failed z =>
      unfold verdict at h
      dsimp only at h
      split at h
      · cases h
      · cases h
        rfl
    | panicked => cases h
    | _ => cases h
  · rintro rfl
    simp [verdict]

theorem Tacit.not_warns (h : Tacit fx) : fx.any Effect.warns = false := by
  rw [List.any_eq_false]
  intro x hx
  cases x with
  | published id findings => exact absurd hx (h.not_published id findings)
  | _ => simp [Effect.warns]

theorem warns_of_tacit (h : Tacit (r.next now e).effects) : (r.next now e).warns = false := by
  unfold Run.warns
  rw [h.not_warns, Bool.and_false]

/-- While nothing is concluded and the service is asked, the watch does not warn. -/
theorem warns_of_asking (hevent : r.watch.concluded? e = none)
    (hbegun : ∀ a, begun? (r.next now e).effects ≠ some (a, false)) :
    (r.next now e).warns = false := by
  have hasks : (r.next now e).standsIn = false := by
    dsimp only [Run.standsIn]
    rw [hevent]
    dsimp only
    cases hb : begun? (r.next now e).effects with
    | none => rfl
    | some x =>
      obtain ⟨a, remote⟩ := x
      cases remote with
      | true => rfl
      | false => exact absurd hb (hbegun a)
  unfold Run.warns
  rw [hasks, Bool.false_and]

theorem warns_of_ok {t : Nat} {raw : List Finding}
    (hevent : r.watch.concluded? e = some (t, .ok raw)) : (r.next now e).warns = false := by
  dsimp only [Run.warns, Run.standsIn]
  rw [hevent, Bool.false_and]

theorem warns_of_failed {t : Nat} {x : QueueError RemoteError}
    (hevent : r.watch.concluded? e = some (t, .error x)) :
    (r.next now e).warns = (r.next now e).effects.any Effect.warns := by
  dsimp only [Run.warns, Run.standsIn]
  rw [hevent, Bool.true_and]

/-- An analysis that failed is followed by the warning exactly if it is told that the key
was refused, which was not known, of the text as it is. -/
theorem warns_of_answered {o : Owed} {d : DocumentEntry} {x : RemoteError}
    {y : QueueError RemoteError} {findings : List Finding} (ho : o ∈ r.watch.owed)
    (hevent : r.watch.concluded? e = some (o.ticket, .error y))
    (hverdict : verdict (.error y) = .failed x)
    (hopen : r.watch.store.get? o.analysis.document = some d)
    (htext : d.fingerprint = o.analysis.fingerprint)
    (hfx : (r.next now e).effects = [.published o.analysis.document findings])
    (hfindings : findings = (r.watch.noticeFor x).1.toList ++
      r.watch.options.filter (Heuristics.scan o.analysis.document o.analysis.content)) :
    (r.next now e).warns = true ↔ ∃ m, r.marking? e = some m ∧ m.heard = true := by
  have hheard : (r.get? o.analysis.document).any (·.fingerprint = o.analysis.fingerprint) =
      true := by
    rw [show r.get? o.analysis.document = some d from hopen]
    simpa using htext
  have hwarns : (r.next now e).warns = (r.watch.noticeFor x).1.toList.any isWarning := by
    rw [warns_of_failed hevent, hfx, List.any_cons, List.any_nil, Bool.or_false]
    dsimp only [Effect.warns]
    rw [hfindings, List.any_append, any_isWarning_scan, Bool.or_false]
  rw [hwarns, any_isWarning_lead]
  constructor
  · rintro ⟨⟨detail, rfl⟩, hnew⟩
    rw [verdict_auth.mp hverdict] at hevent
    exact ⟨_, marking?_of_auth ho hevent hnew, hheard⟩
  · rintro ⟨m, hm, -⟩
    obtain ⟨t, detail, c, hauth, hnew, -⟩ := eq_of_marking? hm
    rw [hevent] at hauth
    cases hauth
    rw [verdict_auth.mpr rfl] at hverdict
    cases hverdict
    exact ⟨⟨detail, rfl⟩, hnew⟩

/-- No note that is heard is made when an analysis lapses. -/
theorem not_heard_of_lapsed {o : Owed} {outcome : Outcome} {m : Mark} (ho : o ∈ r.watch.owed)
    (hevent : r.watch.concluded? e = some (o.ticket, outcome))
    (hwhy : verdict outcome = .dropped ∨ ∀ d, r.watch.store.get? o.analysis.document = some d →
      d.fingerprint ≠ o.analysis.fingerprint) (hm : r.marking? e = some m) : m.heard = false := by
  obtain ⟨t, detail, c, hauth, hnew, -⟩ := eq_of_marking? hm
  rw [hevent, Option.some.injEq, Prod.mk.injEq] at hauth
  obtain ⟨-, rfl⟩ := hauth
  rcases hwhy with hwhy | hwhy
  · rw [verdict_auth.mpr rfl] at hwhy
    cases hwhy
  · rw [marking?_of_auth ho hevent hnew] at hm
    cases hm
    dsimp only
    cases hd : r.get? o.analysis.document with
    | none => rfl
    | some d => simpa using hwhy d hd

/-- The watch warns exactly when a note is made that is heard. -/
theorem warns_iff (r : Run) (now : Duration) (e : Event) :
    (r.next now e).warns = true ↔ ∃ m, r.marking? e = some m ∧ m.heard = true := by
  -- most steps conclude nothing, and ask the service if they begin an analysis
  have hasks : r.watch.concluded? e = none →
      (∀ a, begun? (r.next now e).effects ≠ some (a, false)) →
      ((r.next now e).warns = true ↔ ∃ m, r.marking? e = some m ∧ m.heard = true) := by
    intro hevent hbegun
    rw [warns_of_asking hevent hbegun, marking?_of_none hevent]
    simp
  cases r.stride now e with
  | still _ _ _ _ hevent _ hfx => exact hasks hevent fun a => hfx.not_begun a false
  | edited _ _ _ _ _ _ _ _ hevent _ hfx => exact hasks hevent fun a => hfx.not_begun a false
  | replayed _ _ _ _ _ _ _ _ _ _ _ _ hevent _ hfx =>
    refine hasks hevent fun a ha => ?_
    rw [hfx] at ha
    cases ha
  | begun _ _ _ _ _ _ _ _ _ _ hevent _ hbegun _ =>
    refine hasks hevent fun a ha => ?_
    rw [hbegun] at ha
    cases ha
  | fellBack id d a findings _ _ _ _ _ _ _ hevent _ hfx _ _ _ hscan =>
    have hquiet : (r.next now e).effects.any Effect.warns = false := by
      rw [hfx, hscan]
      simp [Effect.warns, any_isWarning_scan]
    unfold Run.warns
    rw [hquiet, marking?_of_none hevent]
    simp
  | turned _ _ _ _ hevent _ hfx => exact hasks hevent fun a => hfx.not_begun a false
  | answered o outcome d findings hfound houtcome hopen htext _ _ _ _ hevent hfx hlocal =>
    have ho := List.mem_of_find?_eq_some hfound
    have hconcluded := hevent ▸ concluded?_completion hfound houtcome
    rcases hlocal with ⟨raw, rfl⟩ | ⟨x, hx, hfindings⟩
    · rw [warns_of_ok hconcluded]
      simp only [Bool.false_eq_true, false_iff]
      rintro ⟨m, hm, -⟩
      obtain ⟨t, detail, c, hauth, -⟩ := eq_of_marking? hm
      rw [hconcluded] at hauth
      cases hauth
    · cases outcome with
      | ok raw => cases hx
      | error y => exact warns_of_answered ho hconcluded hx hopen htext hfx hfindings
  | lapsed o outcome hfound houtcome hwhy _ _ _ _ hevent hfx =>
    have ho := List.mem_of_find?_eq_some hfound
    have hconcluded := hevent ▸ concluded?_completion hfound houtcome
    rw [warns_of_tacit hfx]
    simp only [Bool.false_eq_true, false_iff]
    rintro ⟨m, hm, hheard⟩
    rw [not_heard_of_lapsed ho hconcluded hwhy hm] at hheard
    cases hheard
  | closed _ _ _ _ _ hevent hbegun _ =>
    refine hasks (hevent ▸ rfl) fun a ha => ?_
    rw [hbegun] at ha
    cases ha
  | reconfigured _ _ _ _ _ _ hevent hfx =>
    exact hasks (concluded?_of_isReconfigured hevent) fun a => hfx.not_begun a false
  | configSet _ _ _ _ _ hevent hfx =>
    refine hasks (hevent ▸ rfl) fun a ha => ?_
    rw [hfx] at ha
    cases ha
  | shutDown _ _ _ hevent hfx => exact hasks (hevent ▸ rfl) fun a => hfx.not_begun a false

/-! ## Once for each note -/

/-- The warnings since the note in force are one, of the moment at which it was made, or
none, if it was not heard. -/
structure Warned (r : Run) (m : Mark) : Prop where
  past : m.moment < r.moment
  since : r.warningsSince m = if m.heard then [m.moment] else []

theorem Run.warnings_past (r : Run) : ∀ k ∈ r.warnings, k < r.moment := by
  induction r with
  | start options config now => exact fun k hk => absurd hk List.not_mem_nil
  | next r now e ih =>
    have hold : ∀ k ∈ r.warnings, k < r.moment + 1 := fun k hk => Nat.lt_succ_of_lt (ih k hk)
    intro k hk
    unfold Run.warnings at hk
    split at hk
    · rcases List.mem_cons.mp hk with rfl | hk
      · exact Nat.lt_succ_self _
      · exact hold k hk
    · exact hold k hk

/-- Of the note in force the watch has warned so far exactly if it was heard, and once. -/
theorem Run.warned {r : Run} {m : Mark} (h : r.mark? = some m) : Warned r m := by
  induction r generalizing m with
  | start options config now => cases h
  | next r now e ih =>
    unfold Run.mark? at h
    split at h
    · cases h
    · cases hnew : r.marking? e with
      | some m' =>
        rw [hnew] at h
        cases h
        obtain ⟨-, -, -, -, -, -, hmoment, -⟩ := eq_of_marking? hnew
        refine ⟨by rw [hmoment]; exact Nat.lt_succ_self _, ?_⟩
        have hnone : r.warnings.filter (m.moment ≤ ·) = [] := by
          rw [List.filter_eq_nil_iff]
          intro k hk
          have := r.warnings_past k hk
          simp only [decide_eq_true_eq]
          omega
        have hwarns := warns_iff r now e
        rw [hnew] at hwarns
        unfold warningsSince warnings
        by_cases hheard : m.heard = true
        · rw [if_pos (hwarns.mpr ⟨m, rfl, hheard⟩), if_pos hheard,
            List.filter_cons_of_pos (by simp [hmoment]), hnone, hmoment]
        · have hquiet : ¬ (r.next now e).warns = true := by
            intro hw
            obtain ⟨m', hm', hheard'⟩ := hwarns.mp hw
            cases hm'
            exact hheard hheard'
          rw [if_neg hquiet, if_neg hheard, hnone]
      | none =>
        rw [hnew] at h
        obtain ⟨hpast, hsince⟩ := ih h
        refine ⟨Nat.lt_succ_of_lt hpast, ?_⟩
        have hquiet : ¬ (r.next now e).warns = true := by
          intro hw
          obtain ⟨m', hm', -⟩ := (warns_iff r now e).mp hw
          rw [hnew] at hm'
          cases hm'
        unfold warningsSince warnings
        rw [if_neg hquiet]
        exact hsince

theorem warnsOnce (r : Run) : r.WarnsOnce := by
  intro m hm
  rw [(Run.warned hm).since]
  split <;> simp

theorem isWarned_iff (r : Run) : r.IsWarned ↔ r.HeedsHeardMark := by
  cases r with
  | start options config now => exact Iff.rfl
  | next r now e =>
    constructor
    · intro h a ha
      obtain ⟨m, hm, hsince⟩ := h a ha
      refine ⟨m, hm, ?_⟩
      rw [(Run.warned hm).since] at hsince
      by_contra hnot
      rw [if_neg hnot] at hsince
      exact hsince rfl
    · intro h a ha
      obtain ⟨m, hm, hheard⟩ := h a ha
      refine ⟨m, hm, ?_⟩
      rw [(Run.warned hm).since, if_pos hheard]
      simp

/-- The watch warns once at most of a note.  Whenever the service is not asked it has
warned, throughout a run, exactly if the notes on which the service was not asked were
made while the refused analysis was about the text as it was. -/
theorem warnsOnce_and_always_isWarned_iff (r : Run) :
    r.WarnsOnce ∧ (r.Always Run.IsWarned ↔ r.Always Run.HeedsHeardMark) :=
  ⟨warnsOnce r,
    Run.Always.imp (fun x h => (isWarned_iff x).mp h.last) r,
    Run.Always.imp (fun x h => (isWarned_iff x).mpr h.last) r⟩

/-- A text is edited while the service is asked about it, and then the service refuses the
key. -/
def Run.editedMeanwhile : Run :=
  let answered := Duration.ofMillis 1500
  asking.after
    [(Duration.ofMillis 1200, .changed ⟨"a.go"⟩ "y"),
      (answered, .answered 0 (.returned (.error (.auth "401")))), (answered, .ran .worker),
      (answered, .ran (.completion 0))]

/-- The edited text is not sent to the service, and nobody was warned. -/
theorem not_isWarned_editedMeanwhile :
    ¬ (Run.editedMeanwhile.leftAlone ⟨1, 2⟩ (Duration.ofMillis 1700)).IsWarned := by
  intro h
  obtain ⟨hskipped, hwarnings⟩ :
      (begun? (Run.editedMeanwhile.leftAlone ⟨1, 2⟩ (Duration.ofMillis 1700)).effects).map (·.2) =
        some false ∧ Run.editedMeanwhile.warnings = [] := by
    decide +kernel
  obtain ⟨⟨a, remote⟩, hbegun, rfl⟩ := Option.map_eq_some_iff.mp hskipped
  obtain ⟨m, -, hsince⟩ := h a hbegun
  unfold Run.warningsSince at hsince
  rw [hwarnings] at hsince
  exact hsince rfl

end Watch

end SmellWatch
