import SmellWatch.Proofs.Watch.Stride.Kinds
/-! What tasks and answers do: a timer rings, the worker of the queue takes a turn, the running
analysis goes on, and what is settled is completed. -/

namespace SmellWatch

namespace Watch

variable {now : Duration} {id other : DocumentId} {fp : Fingerprint} {w w₀ w₁ : Watch} {e : Event}

theorem stride_quiet (timer : Debouncer.Timer)
    (hrings : ∃ timer due, e = .ran (.debounce id timer due))
    (hevent : w.concluded? e = none) (hup : e.isShutDown = false) :
    Stride now w e (w.quiet now id timer).1 (w.quiet now id timer).2 := by
  unfold quiet
  cases hd : w.debouncer? id with
  | none => exact stride_nothing hevent hup
  | some d =>
    dsimp only
    cases hp : d.pending with
    | none =>
      rw [Debouncer.ring_of_none hp]
      exact stride_nothing hevent hup
    | some p =>
      rw [Debouncer.ring_eq hp]
      by_cases hring : d.timer = some timer ∧ d.generation = timer.generation ∧ p.due ≤ now
      · rw [if_pos hring]
        exact stride_fire (setDebouncer_store _ _ _) (setDebouncer_owed _ _ _)
          (setDebouncer_queue _ _ _) (sameTerms_setDebouncer _ _ _)
          (fun other fp ho ha => (awaits_setDebouncer_of_ne w _ ho).mpr ha)
          (fun other fp ha => pends_of_taken rfl ha) ⟨d, p, hd, hp, rfl⟩
          (.inr ⟨hrings, p, waits_of_debouncer? hd hp, rfl, hring.2.2⟩) hevent hup
      · rw [if_neg hring]
        exact stride_nothing hevent hup

theorem stride_takeTurn (hevent : w.concluded? e = none) (hup : e.isShutDown = false) :
    Stride now w e (w.takeTurn now).1 (w.takeTurn now).2 := by
  unfold takeTurn
  split
  · exact stride_nothing hevent hup
  · rcases hq : w.queue.turn now with ⟨queue, settled, started⟩
    dsimp only
    rw [settle_eq]
    have howed : w.owed.map (Owed.settledBy settled) =
        w.owed.map (Owed.settledBy (w.queue.turn now).2.1) := by rw [hq]
    have hqueue : queue = (w.queue.turn now).1 := by rw [hq]
    cases started with
    | none => exact .turned rfl howed hqueue rfl hevent hup (tacit_wakes _)
    | some x =>
      exact .turned rfl howed hqueue rfl hevent hup ((tacit_wakes _).append (tacit_wake _))

/-- What the running analysis does next changes nothing but the end of its work. -/
theorem stride_follow (hstore : w₁.store = w₀.store) (howed : w₁.owed = w₀.owed)
    (hqueue : w₁.queue = w₀.queue) (hdebouncers : w₁.debouncers = w₀.debouncers)
    (hevent : w₀.concluded? e = none) (hup : e.isShutDown = false) (ticket : Nat) (a : Analysis)
    (next : Pursuit.Next (List Finding)) (p : Pursuit) :
    Stride now w₀ e (w₁.follow ticket a next p).1 (w₁.follow ticket a next p).2 := by
  have hcalls : ∀ w' : Watch, w'.debouncers = w₁.debouncers → ∀ id d,
      w₀.store.get? id = some d → w₀.Awaits id d.fingerprint →
      w'.Awaits id d.fingerprint ∨ d.inFlight = true :=
    fun w' hw id d _ ha => .inl (ha.debouncers_eq (hw.trans hdebouncers))
  have hback : ∀ w' : Watch, w'.debouncers = w₁.debouncers → ∀ id fp,
      w'.Pends id fp → w₀.Pends id fp :=
    fun w' hw id fp ha => ha.debouncers_eq (hw.trans hdebouncers).symm
  cases next with
  | sleeps time =>
    exact .still hstore howed (.inl hqueue) (hcalls _ rfl) hevent hup (tacit_alarm _ _)
      (hback _ rfl)
  | calls =>
    exact .still hstore howed (.inl hqueue) (hcalls _ rfl) hevent hup (tacit_called _ _)
      (hback _ rfl)
  | ends result =>
    refine .still hstore howed (.inr ⟨.returned result, ?_⟩) (hcalls _ rfl) hevent hup
      (tacit_wake _) (hback _ rfl)
    rw [← hqueue]
    rfl

theorem stride_goOn (ticket : Nat) (hevent : w.concluded? e = none)
    (hup : e.isShutDown = false) :
    Stride now w e (w.goOn now ticket).1 (w.goOn now ticket).2 := by
  have hstill : Stride now w e w [] := stride_nothing hevent hup
  unfold goOn
  split
  · split
    · exact hstill
    · split
      · exact hstill
      · rename_i hdraw
        obtain ⟨buckets, hw⟩ := drawOn_eq hdraw
        exact stride_follow (hw ▸ rfl) (hw ▸ rfl) (hw ▸ rfl) (hw ▸ rfl) hevent hup _ _ _ _
  · exact hstill

theorem stride_answered (ticket : Nat) (reply : Reply) (hevent : w.concluded? e = none)
    (hup : e.isShutDown = false) :
    Stride now w e (w.answered now ticket reply).1 (w.answered now ticket reply).2 := by
  have hstill : Stride now w e w [] := stride_nothing hevent hup
  unfold answered
  split
  · split
    · exact hstill
    · cases reply with
      | panicked =>
        exact .still rfl rfl (.inr ⟨.panicked, rfl⟩) (fun _ _ _ ha => .inl (ha.debouncers_eq rfl))
          hevent hup (tacit_wake _) fun _ _ ha => ha.debouncers_eq rfl
      | returned answer => exact stride_follow rfl rfl rfl rfl hevent hup _ _ _ _
  · exact hstill

theorem verdict_found {o : Outcome} {findings : List Finding} (h : verdict o = .found findings) :
    o = .ok findings := by
  unfold verdict at h
  split at h
  · cases h
    rfl
  · split at h <;> cases h
  all_goals cases h

theorem ne_ok_of_verdict_failed {o : Outcome} {x : RemoteError} (h : verdict o = .failed x) :
    ∀ raw, o ≠ .ok raw := by
  rintro raw rfl
  cases h

theorem verdict_dropped {x : Outcome} (h : verdict x = .dropped) :
    x = .error .superseded ∨
      x = .error .timedOut ∨ x = .error .canceled ∨ x = .error (.failed .canceled) := by
  unfold verdict at h
  split at h
  · cases h
  · split at h
    · rename_i he
      rw [he]
      simp
    · cases h
  · cases h
  all_goals simp

theorem recordResult_of_gone {s : DocumentStore} {findings : List Finding}
    (h : ∀ d, s.get? id = some d → d.fingerprint ≠ fp) :
    s.recordResult now id fp findings = (false, s) := by
  have hfst : (s.recordResult now id fp findings).1 = false := by
    rw [DocumentStore.recordResult_fst]
    cases hs : s.get? id with
    | none => rfl
    | some d => simp [h d hs]
  rw [← Prod.eta (s.recordResult now id fp findings), hfst,
    DocumentStore.recordResult_of_not hfst]

theorem setResult_of_gone {s : DocumentStore} {findings : List Finding}
    (h : ∀ d, s.get? id = some d → d.fingerprint ≠ fp) :
    s.setResult now id fp findings = (false, s) := by
  have hfst : (s.setResult now id fp findings).1 = false := by
    rw [DocumentStore.setResult_fst, recordResult_of_gone h]
  rw [← Prod.eta (s.setResult now id fp findings), hfst, DocumentStore.setResult_of_not hfst]

theorem setResult_of_text {s : DocumentStore} {d : DocumentEntry} {findings : List Finding}
    (h : s.get? id = some d) (hfp : d.fingerprint = fp) :
    s.setResult now id fp findings = (true, (s.setResult now id fp findings).2) := by
  have hfst : (s.setResult now id fp findings).1 = true := by
    rw [DocumentStore.setResult_fst, recordResult_of_text h hfp]
  rw [← hfst]

theorem noticeFor_eq (x : RemoteError) (w : Watch) :
    ∃ lead refused, w.noticeFor x = (lead, { w with refused }) := by
  unfold noticeFor
  split
  · exact ⟨_, w.refused, rfl⟩
  · exact ⟨_, w.refused, rfl⟩
  · split
    · exact ⟨_, w.refused, rfl⟩
    · exact ⟨_, _, rfl⟩
  all_goals exact ⟨_, w.refused, rfl⟩

/-- The notice about a failure depends on the settings and on what was refused. -/
theorem noticeFor_fst {w' : Watch} (x : RemoteError) (hrefused : w'.refused = w.refused)
    (hconfig : w'.store.config = w.store.config) : (w'.noticeFor x).1 = (w.noticeFor x).1 := by
  unfold noticeFor
  cases x with
  | auth detail =>
    dsimp only
    rw [hrefused, hconfig]
    split <;> rfl
  | _ => rfl

/-- Nothing comes of an analysis whose text is gone. -/
theorem conclude_of_gone (now : Duration) {a : Analysis} (x : Outcome)
    (h : ∀ d, w.store.get? a.document = some d → d.fingerprint ≠ a.fingerprint) :
    ∃ refused, w.conclude now a x =
      ({ w with refused, store := (w.store.finishAnalysis a.document a.seq).2 }, []) := by
  unfold conclude
  cases verdict x with
  | found findings =>
    dsimp only
    rw [setResult_of_gone h]
    exact ⟨w.refused, rfl⟩
  | failed y =>
    obtain ⟨lead, refused, hn⟩ := noticeFor_eq y w
    dsimp only
    rw [hn]
    unfold fallBack
    dsimp only
    rw [recordResult_of_gone h]
    exact ⟨refused, rfl⟩
  | dropped => exact ⟨w.refused, rfl⟩

theorem conclude_of_dropped (now : Duration) (a : Analysis) {x : Outcome}
    (h : verdict x = .dropped) :
    w.conclude now a x =
      ({ w with store := (w.store.finishAnalysis a.document a.seq).2 }, []) := by
  unfold conclude
  rw [h]

/-- What was found is told if it is about the text as it is; when the service failed, what
the heuristics find is. -/
theorem conclude_of_text (now : Duration) {a : Analysis} {x : Outcome} {d : DocumentEntry}
    (hopen : w.store.get? a.document = some d) (hfp : d.fingerprint = a.fingerprint)
    (hx : verdict x ≠ .dropped) :
    ∃ refused store findings,
      w.conclude now a x = ({ w with refused, store }, [.published a.document findings]) ∧
      ((∃ raw, x = .ok raw ∧ findings = w.options.filter raw ∧
          store = (w.store.setResult now a.document d.fingerprint findings).2) ∨
        ((∀ raw, x ≠ .ok raw) ∧
          store = (w.store.recordResult now a.document d.fingerprint findings).2)) ∧
      ((∃ raw, x = .ok raw) ∨ ∃ y, verdict x = .failed y ∧
        findings = (w.noticeFor y).1.toList ++
          w.options.filter (Heuristics.scan a.document a.content)) := by
  unfold conclude
  cases hv : verdict x with
  | found findings =>
    dsimp only
    rw [setResult_of_text hopen hfp, ← hfp]
    have hx := verdict_found hv
    exact ⟨w.refused, _, _, rfl, .inl ⟨findings, hx, rfl, rfl⟩, .inl ⟨findings, hx⟩⟩
  | failed y =>
    obtain ⟨lead, refused, hn⟩ := noticeFor_eq y w
    dsimp only
    rw [hn]
    unfold fallBack
    dsimp only
    rw [recordResult_of_text hopen hfp, ← hfp]
    exact ⟨refused, _, _, rfl, .inr ⟨ne_ok_of_verdict_failed hv, rfl⟩, .inr ⟨y, rfl, by rw [hn]⟩⟩
  | dropped => exact absurd hv hx

theorem stride_complete (ticket : Nat) (w : Watch) :
    Stride now w (.ran (.completion ticket)) (w.complete now ticket).1
      (w.complete now ticket).2 := by
  unfold complete
  cases hf : w.owed.find? (·.ticket = ticket) with
  | none =>
    refine stride_nothing ?_ rfl
    simp [concluded?, hf]
  | some o =>
    have ht : o.ticket = ticket := by simpa using List.find?_some hf
    subst ht
    dsimp only
    cases ho : o.outcome with
    | none =>
      refine stride_nothing ?_ rfl
      simp [concluded?, hf, ho]
    | some outcome =>
      dsimp only
      by_cases hdropped : verdict outcome = .dropped
      · rw [conclude_of_dropped now o.analysis hdropped]
        exact .lapsed o outcome hf ho (.inl hdropped) rfl rfl rfl rfl rfl tacit_nil
      · by_cases htext : ∀ d, w.store.get? o.analysis.document = some d →
            d.fingerprint ≠ o.analysis.fingerprint
        · obtain ⟨refused, hc⟩ := conclude_of_gone
            (w := { w with owed := w.owed.filter (·.ticket ≠ o.ticket) }) now outcome htext
          rw [hc]
          exact .lapsed o outcome hf ho (.inr htext) rfl rfl rfl rfl rfl tacit_nil
        · obtain ⟨d, hd, hfp⟩ : ∃ d, w.store.get? o.analysis.document = some d ∧
              d.fingerprint = o.analysis.fingerprint := by simpa using htext
          obtain ⟨refused, store, findings, hc, hstore, hlocal⟩ := conclude_of_text
            (w := { w with owed := w.owed.filter (·.ticket ≠ o.ticket) }) now hd hfp hdropped
          rw [hc]
          refine .answered o outcome d findings hf ho hd hfp hstore rfl rfl rfl rfl rfl ?_
          rcases hlocal with hraw | ⟨y, hy, hfindings⟩
          · exact .inl hraw
          · have hlead : ({ w with owed := w.owed.filter (·.ticket ≠ o.ticket) }.noticeFor y).1 =
                (w.noticeFor y).1 := noticeFor_fst y rfl rfl
            rw [hlead] at hfindings
            exact .inr ⟨y, hy, hfindings⟩

end Watch

end SmellWatch
