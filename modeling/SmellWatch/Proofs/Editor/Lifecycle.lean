import SmellWatch.Proofs.Editor.Conversation
import SmellWatch.Proofs.Watch.Confidence
import SmellWatch.Proofs.Watch.Contents
/-! How a session comes and goes.

The phase of a session depends on the values that came and on nothing else (`phase_handle`): it
runs from the first request that is a proper one, and until it is asked to shut down.  In the
other phases the session does nothing but answer; the request that opens it may bring settings,
and no documents (`handle_of_not_running`).  So a conversation keeps its order, step by step
(`Conversation.orderly_after`). -/

namespace SmellWatch

namespace Session

variable {β : Type} {s : Session β} {v : Json}

/-! ## Phases -/

/-- A value is a first request, with parameters that can be read. -/
def opens (v : Json) : Bool :=
  match Message.ofJson? v with
  | some (.request _ method params) => method = "initialize" && (Params.initialize? params).isSome
  | _ => false

/-- A value is the request to shut down. -/
def asksToStop (v : Json) : Bool :=
  match Message.ofJson? v with
  | some (.request _ method _) => method = "shutdown"
  | _ => false

theorem applySettings_phase (s : Session β) (overlay : Json) :
    (s.applySettings overlay).1.phase = s.phase := by
  unfold applySettings
  split <;> rfl

theorem handleRunning_phase (s : Session β) (method : String) (params : Json) :
    (s.handleRunning method params).1.phase = s.phase := by
  unfold handleRunning
  repeat' split
  all_goals first | rfl | exact applySettings_phase s _

theorem handleNotification_phase (s : Session β) (method : String) (params : Json) :
    (s.handleNotification method params).1.phase = s.phase := by
  unfold handleNotification
  split
  · exact s.handleRunning_phase method params
  · rfl

theorem handleRequest_phase (s : Session β) (id : Json) (method : String) (params : Json) :
    (s.handleRequest id method params).1.phase = match s.phase with
      | .starting =>
        if method = "initialize" ∧ (Params.initialize? params).isSome then .running else .starting
      | .running => if method = "shutdown" then .stopping else .running
      | .stopping => .stopping := by
  unfold handleRequest
  cases hphase : s.phase with
  | starting =>
    dsimp only
    split
    · rename_i hmethod
      unfold start
      cases Params.initialize? params with
      | none => simpa using hphase
      | some options => simp [hmethod]
    · rename_i hmethod
      rw [if_neg fun h => hmethod h.1]
      exact hphase
  | running =>
    dsimp only
    split
    · rename_i hmethod
      subst hmethod
      rw [if_neg (by decide)]
      exact hphase
    · split
      · rfl
      · split <;> exact hphase
  | stopping => exact hphase

/-- What a value makes of the phase. -/
theorem phase_handle (s : Session β) (v : Json) :
    (s.handle v).1.phase = match s.phase with
      | .starting => if opens v then .running else .starting
      | .running => if asksToStop v then .stopping else .running
      | .stopping => .stopping := by
  unfold handle opens asksToStop
  cases Message.ofJson? v with
  | none => cases s.phase <;> rfl
  | some m =>
    cases m with
    | request id method params =>
      dsimp only
      rw [handleRequest_phase]
      cases s.phase <;> simp
    | notification method params =>
      dsimp only
      rw [handleNotification_phase]
      cases s.phase <;> rfl
    | response => cases s.phase <;> rfl

/-! ## What is done in a phase -/

theorem applySettings_deeds (s : Session β) (overlay : Json) :
    ∀ d ∈ (s.applySettings overlay).2, (∃ m, d = .send m) ∨
      ∃ options config, d = .tell (.reconfigured options config) := by
  intro d hd
  unfold applySettings at hd
  split at hd
  · exact .inr ⟨_, _, List.mem_singleton.mp hd⟩
  · exact .inl ⟨_, List.mem_singleton.mp hd⟩

/-- The request that opens a session may bring settings. -/
theorem start_deeds (s : Session β) (id params : Json) :
    ∀ d ∈ (s.start id params).2, (∃ m, d = .send m) ∨
      ∃ options config, d = .tell (.reconfigured options config) := by
  intro d hd
  unfold start at hd
  split at hd
  · exact .inl ⟨_, List.mem_singleton.mp hd⟩
  · dsimp only at hd
    rcases List.mem_append.mp hd with hd | hd
    · split at hd
      · exact s.applySettings_deeds _ d hd
      · exact absurd hd List.not_mem_nil
    · exact .inl ⟨_, List.mem_singleton.mp hd⟩

/-- A session that does not run only answers, unless it is opened. -/
theorem handle_of_not_running (h : s.phase ≠ .running) (v : Json) :
    ((s.handle v).1 = s ∧ ∀ d ∈ (s.handle v).2, ∃ m, d = .send m) ∨
      s.phase = .starting ∧ opens v = true ∧
        ∀ d ∈ (s.handle v).2, (∃ m, d = .send m) ∨
          ∃ options config, d = .tell (.reconfigured options config) := by
  have hanswer : ∀ m : Json, ∀ d ∈ [Deed.send m], ∃ m, d = .send m :=
    fun m d hd => ⟨m, List.mem_singleton.mp hd⟩
  have hnothing : ∀ d ∈ ([] : List Deed), ∃ m, d = .send m := fun _ hd => nomatch hd
  unfold handle opens
  cases Message.ofJson? v with
  | none =>
    refine .inl ⟨rfl, fun d hd => ?_⟩
    obtain ⟨id, -, rfl⟩ := List.mem_map.mp hd
    exact ⟨_, rfl⟩
  | some m =>
    cases m with
    | response => exact .inl ⟨rfl, hnothing⟩
    | notification method params =>
      dsimp only
      unfold handleNotification
      rw [if_neg h]
      exact .inl ⟨rfl, hnothing⟩
    | request id method params =>
      dsimp only
      unfold handleRequest
      cases hphase : s.phase with
      | running => exact absurd hphase h
      | stopping => exact .inl ⟨rfl, hanswer _⟩
      | starting =>
        dsimp only
        split
        · rename_i hmethod
          cases hparams : Params.initialize? params with
          | none =>
            unfold start
            rw [hparams]
            exact .inl ⟨rfl, hanswer _⟩
          | some options =>
            exact .inr ⟨rfl, by simp [hmethod], s.start_deeds id params⟩
        · exact .inl ⟨rfl, hanswer _⟩

/-! ## What came, and the phase -/

/-- A value opened the session, and a later one asked it to shut down. -/
def AcceptsShutDown (values : List Json) : Prop :=
  ∃ before v after, values = before ++ v :: after ∧ (∃ u ∈ before, opens u = true) ∧
    asksToStop v = true

theorem acceptsShutDown_append (values : List Json) (v : Json) :
    AcceptsShutDown (values ++ [v]) ↔
      AcceptsShutDown values ∨ (∃ u ∈ values, opens u = true) ∧ asksToStop v = true := by
  constructor
  · rintro ⟨before, w, after, hvalues, hopened, hstop⟩
    rcases List.eq_nil_or_concat after with rfl | ⟨after, x, rfl⟩
    · obtain ⟨rfl, hw⟩ := List.append_inj' hvalues rfl
      cases hw
      exact .inr ⟨hopened, hstop⟩
    · rw [List.concat_eq_append, ← List.cons_append, ← List.append_assoc] at hvalues
      obtain ⟨rfl, -⟩ := List.append_inj' hvalues rfl
      exact .inl ⟨before, w, after, rfl, hopened, hstop⟩
  · rintro (⟨before, w, after, rfl, hopened, hstop⟩ | ⟨hopened, hstop⟩)
    · exact ⟨before, w, after ++ [v], by simp, hopened, hstop⟩
    · exact ⟨values, v, [], rfl, hopened, hstop⟩

end Session

/-- The event that a deed tells the watch. -/
def Deed.event? : Deed → Option Watch.Event
  | .tell e => some e
  | _ => none

namespace Watch

/-- The watch after some events, all at one time. -/
def afterAll (now : Duration) (events : List Event) (w : Watch) : Watch :=
  events.foldl (fun w e => (w.step now e).1) w

variable {events : List Event}

theorem afterAll_contents (h : ∀ e ∈ events, e.isOfDocument = false) (now : Duration)
    (w : Watch) : (w.afterAll now events).store.contents = w.store.contents := by
  induction events generalizing w with
  | nil => rfl
  | cons e r ih =>
    exact (ih (fun x hx => h x (List.mem_cons_of_mem _ hx)) _).trans
      (contents_step (h e List.mem_cons_self) now w)

/-- Without other settings, the settings stay. -/
theorem afterAll_settings (h : ∀ e ∈ events, e.config? = none) (now : Duration) (w : Watch) :
    (w.afterAll now events).options = w.options ∧
      (w.afterAll now events).store.config = w.store.config := by
  induction events generalizing w with
  | nil => exact ⟨rfl, rfl⟩
  | cons e r ih =>
    have hconfig := h e List.mem_cons_self
    have hoptions : e.options? = none := by cases e <;> first | rfl | cases hconfig
    obtain ⟨ho, hc⟩ := ih (fun x hx => h x (List.mem_cons_of_mem _ hx)) (w.step now e).1
    refine ⟨ho.trans ?_, hc.trans ?_⟩
    · rw [options_step, hoptions]
      rfl
    · rw [config_step, hconfig]
      rfl

end Watch

namespace Conversation

variable {β : Type} {c : Conversation β} {now : Duration} {x : Happening}

/-! ## What comes while the session runs, and what does not -/

/-- A value comes while the session runs. -/
def HearsRunning (c : Conversation β) (x : Happening) : Prop :=
  c.ending = none ∧ c.session.phase = .running ∧ ∃ v, x = .received v

/-- The request comes that opens the session. -/
def IsOpenedBy (c : Conversation β) (x : Happening) : Prop :=
  c.ending = none ∧ c.session.phase = .starting ∧ ∃ v, x = .received v ∧ Session.opens v = true

/-- The request to shut down comes while the session runs. -/
def IsStoppedBy (c : Conversation β) (x : Happening) : Prop :=
  c.ending = none ∧ c.session.phase = .running ∧
    ∃ v, x = .received v ∧ Session.asksToStop v = true

/-- Deeds that do not ask for the status do to the watch what they tell it. -/
theorem performAll_watch {deeds : List Deed}
    (h : ∀ d ∈ deeds, (∃ m, d = .send m) ∨ ∃ e, d = .tell e) (c : Conversation β)
    (now : Duration) :
    (deeds.foldl (perform now) c).watch =
      c.watch.afterAll now (deeds.filterMap Deed.event?) := by
  induction deeds generalizing c with
  | nil => rfl
  | cons d r ih =>
    have hr := ih fun x hx => h x (List.mem_cons_of_mem _ hx)
    rcases h d List.mem_cons_self with ⟨m, rfl⟩ | ⟨e, rfl⟩
    · exact hr _
    · exact hr _

/-- From one state to the next, the watch was told nothing about documents, and about settings
only if the session was opened. -/
def IsAside (now : Duration) (opened : Prop) (c c' : Conversation β) : Prop :=
  ∃ events : List Watch.Event,
    (∀ e ∈ events, e.isOfDocument = false ∧ (e.config? = none ∨ opened)) ∧
    c'.watch = c.watch.afterAll now events ∧
    (c'.session.inForce = c.session.inForce ∨ opened)

namespace IsAside

variable {opened : Prop} {c' : Conversation β}

theorem still (hwatch : c'.watch = c.watch) (hsession : c'.session = c.session) :
    IsAside now opened c c' :=
  ⟨[], fun _ he => absurd he List.not_mem_nil, hwatch, .inl (by rw [hsession])⟩

theorem told {e : Watch.Event} (hdocument : e.isOfDocument = false) (hconfig : e.config? = none)
    (hwatch : c'.watch = (c.watch.step now e).1) (hsession : c'.session = c.session) :
    IsAside now opened c c' := by
  refine ⟨[e], fun x hx => ?_, hwatch, .inl (by rw [hsession])⟩
  cases List.mem_singleton.mp hx
  exact ⟨hdocument, .inl hconfig⟩

theorem imp {opened' : Prop} (h : IsAside now opened c c') (hopened : opened → opened') :
    IsAside now opened' c c' := by
  obtain ⟨events, hevents, hwatch, hinForce⟩ := h
  exact ⟨events, fun e he => ⟨(hevents e he).1, (hevents e he).2.imp_right hopened⟩, hwatch,
    hinForce.imp_right hopened⟩

/-- The documents stay, and without an opening the settings. -/
theorem stays (h : IsAside now opened c c') :
    c'.watch.store.contents = c.watch.store.contents ∧
      (¬ opened → c'.session.inForce = c.session.inForce ∧
        c'.watch.options = c.watch.options ∧
        c'.watch.store.config = c.watch.store.config) := by
  obtain ⟨events, hevents, hwatch, hinForce⟩ := h
  rw [hwatch]
  refine ⟨Watch.afterAll_contents (fun e he => (hevents e he).1) now _, fun hnot => ?_⟩
  exact ⟨hinForce.resolve_right hnot,
    Watch.afterAll_settings (fun e he => (hevents e he).2.resolve_right hnot) now _⟩

end IsAside

/-- A value that comes while the session does not run brings settings at most, and only if it
opens the session. -/
theorem aside_handle (hphase : c.session.phase ≠ .running) (now : Duration) (v : Json) :
    IsAside now (c.session.phase = .starting ∧ Session.opens v = true) c
      ((c.session.handle v).2.foldl (perform now)
        { c with session := (c.session.handle v).1 }) := by
  have hsession := (performAll_stays { c with session := (c.session.handle v).1 } now
    (c.session.handle v).2).1
  rcases Session.handle_of_not_running hphase v with ⟨hsame, hdeeds⟩ | ⟨hstarting, hopens, hdeeds⟩
  · have hnothing : (c.session.handle v).2.filterMap Deed.event? = [] := by
      refine List.filterMap_eq_nil_iff.mpr fun d hd => ?_
      obtain ⟨m, rfl⟩ := hdeeds d hd
      rfl
    refine .still ?_ (hsession.trans hsame)
    rw [performAll_watch fun d hd => .inl (hdeeds d hd), hnothing]
    rfl
  · refine ⟨_, fun e he => ?_, performAll_watch (fun d hd => ?_) _ now,
      .inr ⟨hstarting, hopens⟩⟩
    · obtain ⟨d, hd, hevent⟩ := List.mem_filterMap.mp he
      rcases hdeeds d hd with ⟨m, rfl⟩ | ⟨options, config, rfl⟩
      · cases hevent
      · cases hevent
        exact ⟨rfl, .inr ⟨hstarting, hopens⟩⟩
    · exact (hdeeds d hd).imp_right fun ⟨options, config, hd⟩ => ⟨_, hd⟩

/-- What happens while the session does not run, or does not come from the editor, does nothing
about documents, and brings other settings only if it opens the session. -/
theorem step_aside (h : ¬ c.HearsRunning x) (now : Duration) :
    IsAside now (c.IsOpenedBy x) c (c.step now x) := by
  have hfinish : ∀ e : Serving.Ending,
      IsAside now (c.IsOpenedBy x) c (if c.ending.isSome then c else c.finish now e) := by
    intro e
    split
    · exact .still rfl rfl
    · exact .told rfl rfl (finish_watch e) rfl
  cases x with
  | ran t => exact .told rfl rfl (stepWatch_watch (.ran t)) rfl
  | answered ticket reply => exact .told rfl rfl (stepWatch_watch (.answered ticket reply)) rfl
  | wrote => exact .still rfl rfl
  | muted => exact .still rfl rfl
  | hungUp => exact hfinish _
  | garbled e => exact hfinish _
  | received v =>
    cases hending : c.ending with
    | some e =>
      rw [step_over (by rw [hending]; rfl)]
      exact .still rfl rfl
    | none =>
      rw [step_received hending]
      cases hexit : Session.isExit v with
      | true =>
        rw [hear_of_isExit hexit]
        exact .told rfl rfl rfl rfl
      | false =>
        have hphase : c.session.phase ≠ .running := fun hphase => h ⟨hending, hphase, v, rfl⟩
        have hheard : ({ c with received := c.received ++ [v] } : Conversation β).session.phase ≠
            .running := hphase
        rw [hear_of_not_isExit hexit]
        exact (aside_handle hheard now v).imp fun ⟨hstarting, hopens⟩ =>
          ⟨hending, hstarting, v, rfl, hopens⟩

/-! ## The phase of a conversation -/

theorem opens_of_isExit {v : Json} (h : Session.isExit v = true) : Session.opens v = false := by
  unfold Session.isExit at h
  unfold Session.opens
  split at h
  · rename_i hv
    rw [hv]
  · cases h

theorem asksToStop_of_isExit {v : Json} (h : Session.isExit v = true) :
    Session.asksToStop v = false := by
  unfold Session.isExit at h
  unfold Session.asksToStop
  split at h
  · rename_i hv
    rw [hv]
  · cases h

/-- What a value makes of the phase. -/
theorem step_received_phase (h : c.ending = none) (now : Duration) (v : Json) :
    (c.step now (.received v)).session.phase = match c.session.phase with
      | .starting => if Session.opens v then .running else .starting
      | .running => if Session.asksToStop v then .stopping else .running
      | .stopping => .stopping := by
  rw [step_received_session h]
  cases hexit : Session.isExit v with
  | true =>
    rw [opens_of_isExit hexit, asksToStop_of_isExit hexit]
    cases hphase : c.session.phase <;> exact hphase
  | false => exact c.session.phase_handle v

/-- Nothing but a value has to do with the session. -/
theorem step_session (h : ∀ v, x ≠ .received v) (now : Duration) :
    (c.step now x).session = c.session ∧ (c.step now x).received = c.received := by
  cases x with
  | received v => exact absurd rfl (h v)
  | hungUp =>
    simp only [step]
    split <;> exact ⟨rfl, rfl⟩
  | garbled e =>
    simp only [step]
    split <;> exact ⟨rfl, rfl⟩
  | _ => exact ⟨rfl, rfl⟩

/-- The phase is what the values that came make of it, and the exit code what the phase was. -/
structure InPhase (c : Conversation β) : Prop where
  starting : c.session.phase = .starting ↔ ∀ v ∈ c.received, Session.opens v = false
  stopping : c.session.phase = .stopping ↔ Session.AcceptsShutDown c.received
  code : ∀ code, c.ending = some (.exited code) → code = c.session.exitCode

namespace InPhase

theorem received (h : c.InPhase) (hending : c.ending = none) (now : Duration) (v : Json) :
    (c.step now (.received v)).InPhase := by
  have hphase := step_received_phase hending now v
  have hreceived : (c.step now (.received v)).received = c.received ++ [v] :=
    step_received_received hending v
  refine ⟨?_, ?_, ?_⟩
  · rw [hphase, hreceived, List.forall_mem_append, List.forall_mem_singleton, ← h.starting]
    cases c.session.phase <;> cases Session.opens v <;> cases Session.asksToStop v <;> decide
  · have hopened : (∃ u ∈ c.received, Session.opens u = true) ↔ c.session.phase ≠ .starting := by
      rw [ne_eq, h.starting]
      simp
    rw [hphase, hreceived, Session.acceptsShutDown_append, hopened, ← h.stopping]
    cases c.session.phase <;> cases Session.opens v <;> cases Session.asksToStop v <;> decide
  · intro code hcode
    rw [step_received_ending hending] at hcode
    cases hexit : Session.isExit v with
    | true =>
      rw [hexit] at hcode
      rw [step_received_session hending, hexit]
      cases hcode
      rfl
    | false =>
      rw [hexit] at hcode
      cases hcode

theorem step (h : c.InPhase) (now : Duration) (x : Happening) : (c.step now x).InPhase := by
  have hover : ∀ e : Serving.Ending, (∀ code, e = .exited code → code = c.session.exitCode) →
      (if c.ending.isSome then c else c.finish now e).InPhase := by
    intro e he
    split
    · exact h
    · exact ⟨h.starting, h.stopping, fun code hcode => he code (Option.some.inj hcode)⟩
  cases x with
  | received v =>
    cases hending : c.ending with
    | none => exact h.received hending now v
    | some e =>
      rw [step_over (by rw [hending]; rfl)]
      exact h
  | hungUp => exact hover _ fun code hcode => (Serving.Ending.exited.inj hcode).symm
  | garbled e => exact hover _ fun code hcode => nomatch hcode
  | _ => exact ⟨h.starting, h.stopping, h.code⟩

end InPhase

theorem inPhase_after (environment : Environment) (fileConfig : Config)
    (connect : Config → Except RemoteError β) (inForce : InForce β) (begun : Duration)
    (l : List (Duration × Happening)) :
    ((start environment fileConfig connect inForce begun).after l).InPhase := by
  refine after_induction l ⟨?_, ?_, ?_⟩ fun _ now x h => h.step now x
  · exact iff_of_true rfl fun _ hv => nomatch hv
  · refine iff_of_false (fun h => nomatch h) ?_
    rintro ⟨before, v, after, hvalues, -⟩
    exact absurd (List.append_eq_nil_iff.mp hvalues.symm).2 (List.cons_ne_nil _ _)
  · exact fun _ h => nomatch h

/-! ## The order of a conversation -/

/-- What the values that came have to do with a conversation, and what can become of it in one
step. -/
structure IsOrderly (values : List Json) (c : Conversation β) (now : Duration) (x : Happening) :
    Prop where
  /-- The session starts until a value opens it. -/
  starting : c.session.phase = .starting ↔ ∀ v ∈ values, Session.opens v = false
  /-- It stops when a value asks for it after one that opened it. -/
  stopping : c.session.phase = .stopping ↔ Session.AcceptsShutDown values
  /-- The phase moves forward only. -/
  moves : (c.step now x).session.phase = c.session.phase ∨
    c.IsOpenedBy x ∧ (c.step now x).session.phase = .running ∨
    c.IsStoppedBy x ∧ (c.step now x).session.phase = .stopping
  opened : c.IsOpenedBy x → (c.step now x).session.phase = .running
  stopped : c.IsStoppedBy x → (c.step now x).session.phase = .stopping
  /-- The watch is told about documents only by what comes while the session runs, and about
  settings only by that and by what opens the session. -/
  aside : ¬ c.HearsRunning x → IsAside now (c.IsOpenedBy x) c (c.step now x)
  /-- Whatever else happens leaves the documents alone. -/
  contents : ¬ c.HearsRunning x →
    (c.step now x).watch.store.contents = c.watch.store.contents
  settings : ¬ c.HearsRunning x → ¬ c.IsOpenedBy x →
    (c.step now x).session.inForce = c.session.inForce ∧
      (c.step now x).watch.options = c.watch.options ∧
      (c.step now x).watch.store.config = c.watch.store.config
  /-- The conversation ends well if the session was asked to shut down. -/
  code : ∀ code, c.ending = some (.exited code) →
    code = 0 ∧ Session.AcceptsShutDown values ∨ code = 1 ∧ ¬ Session.AcceptsShutDown values
  /-- An exit and the end of the input end the conversation. -/
  ends : c.ending = none → (x = .hungUp ∨ ∃ v, x = .received v ∧ Session.isExit v = true) →
    ∃ code, (c.step now x).ending = some (.exited code)

theorem opened_phase (h : c.IsOpenedBy x) (now : Duration) :
    (c.step now x).session.phase = .running := by
  obtain ⟨hending, hphase, v, rfl, hopens⟩ := h
  rw [step_received_phase hending, hphase, hopens]
  rfl

theorem stopped_phase (h : c.IsStoppedBy x) (now : Duration) :
    (c.step now x).session.phase = .stopping := by
  obtain ⟨hending, hphase, v, rfl, hstops⟩ := h
  rw [step_received_phase hending, hphase, hstops]
  rfl

/-- In all other cases the phase stays. -/
theorem phase_stays (hopened : ¬ c.IsOpenedBy x) (hstopped : ¬ c.IsStoppedBy x)
    (now : Duration) : (c.step now x).session.phase = c.session.phase := by
  cases x with
  | received v =>
    cases hending : c.ending with
    | some e => rw [step_over (by rw [hending]; rfl)]
    | none =>
      rw [step_received_phase hending]
      cases hphase : c.session.phase with
      | starting => exact if_neg fun hopens => hopened ⟨hending, hphase, v, rfl, hopens⟩
      | running => exact if_neg fun hstops => hstopped ⟨hending, hphase, v, rfl, hstops⟩
      | stopping => rfl
  | _ =>
    refine congrArg Session.phase (step_session ?_ now).1
    rintro v ⟨⟩

/-- Every conversation keeps its order. -/
theorem orderly_after (environment : Environment) (fileConfig : Config)
    (connect : Config → Except RemoteError β) (inForce : InForce β) (begun : Duration)
    (l : List (Duration × Happening)) (now : Duration) (x : Happening) :
    ((start environment fileConfig connect inForce begun).after l).IsOrderly (heard l) now x := by
  have hreceived : ((start environment fileConfig connect inForce begun).after l).received =
      heard l := received_after _ l
  have h := inPhase_after environment fileConfig connect inForce begun l
  generalize (start environment fileConfig connect inForce begun).after l = c at h hreceived
  rw [← hreceived]
  refine ⟨h.starting, h.stopping, ?_, (opened_phase · now), (stopped_phase · now),
    (step_aside · now), fun hnot => (step_aside hnot now).stays.1,
    fun hnot => (step_aside hnot now).stays.2, ?_, ?_⟩
  · by_cases hopened : c.IsOpenedBy x
    · exact .inr (.inl ⟨hopened, opened_phase hopened now⟩)
    · by_cases hstopped : c.IsStoppedBy x
      · exact .inr (.inr ⟨hstopped, stopped_phase hstopped now⟩)
      · exact .inl (phase_stays hopened hstopped now)
  · intro code hcode
    have hexit := h.code code hcode
    unfold Session.exitCode at hexit
    rw [← h.stopping]
    split at hexit
    · exact .inl ⟨hexit, ‹_›⟩
    · exact .inr ⟨hexit, ‹_›⟩
  · rintro hending (rfl | ⟨v, rfl, hexit⟩)
    · exact ⟨_, by simp only [step, hending]; rfl⟩
    · rw [step_received_ending hending, if_pos hexit]
      exact ⟨_, rfl⟩

end Conversation

end SmellWatch
