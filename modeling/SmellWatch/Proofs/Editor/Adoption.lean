import SmellWatch.Proofs.Editor.Deeds
import SmellWatch.Proofs.Watch.Reconfiguration
/-! Settings that an editor sends.

Settings come with the request that opens a session, and with notifications while it runs
(`Session.overlays`).  Each are laid over those of the file, and either all that follows from them
is adopted or nothing (`Session.handle_of_overlay`).  So the session and the watch go by the last
ones that were sound, whatever came before or in between, and those that are not sound lead to one
warning and to nothing else (`Conversation.obeys_after`).

The age at which cached results expire is the exception: it is that of the file, and no settings
change it (`not_cacheObeys_impatient`). -/

namespace SmellWatch

/-! ## Settings among the values that come -/

namespace Session

variable {β : Type} {s : Session β} {v o : Json} {values : List Json}

/-- The settings that come with a first request. -/
def openingOverlay? (v : Json) : Option Json :=
  match Message.ofJson? v with
  | some (.request _ _ params) => (Params.initialize? params).join.bind Params.overlay?
  | _ => none

/-- The settings that come with a notification. -/
def changedOverlay? (v : Json) : Option Json :=
  match Message.ofJson? v with
  | some (.notification method params) =>
    if method = "workspace/didChangeConfiguration" then
      (Params.settings? params).bind Params.overlay?
    else none
  | _ => none

/-- The settings that a value brings to a session in a phase. -/
def overlayOf? (p : Phase) (v : Json) : Option Json :=
  match p with
  | .starting => if opens v then openingOverlay? v else none
  | .running => changedOverlay? v
  | .stopping => none

/-- The settings that come in the order in which they come. -/
def overlays (values : List Json) : List Json :=
  ((values.find? opens).bind openingOverlay?).toList ++
    (whileRunning .starting values).filterMap changedOverlay?

/-- The settings that are adopted: they fit those of the file, their globs can be read, and the
service can be reached by them. -/
def adoptions (s : Session β) (overlays : List Json) : List (InForce β) :=
  overlays.filterMap fun o => (s.overlaid o).toOption

theorem adopt_eq_ok_iff {connect : Config → Except RemoteError β} {c : Config} {f : InForce β} :
    adopt connect c = .ok f ↔
      f.config = c ∧ c.includeFilter = .ok f.filter ∧ connect c = .ok f.service := by
  obtain ⟨config, filter, service⟩ := f
  unfold adopt
  cases c.includeFilter with
  | error e => exact iff_of_false nofun fun h => nomatch h.2.1
  | ok filter' =>
    cases connect c with
    | error e => exact iff_of_false nofun fun h => nomatch h.2.2
    | ok service' =>
      constructor
      · rintro ⟨⟩
        exact ⟨rfl, rfl, rfl⟩
      · rintro ⟨rfl, ⟨⟩, ⟨⟩⟩
        rfl

theorem overlaid_eq_ok_iff {f : InForce β} :
    s.overlaid o = .ok f ↔ s.fileConfig.mergedWith s.environment o = some f.config ∧
      f.config.includeFilter = .ok f.filter ∧ s.connect f.config = .ok f.service := by
  unfold overlaid
  cases s.fileConfig.mergedWith s.environment o with
  | none => exact iff_of_false nofun fun h => nomatch h.1
  | some c =>
    refine adopt_eq_ok_iff.trans ⟨?_, ?_⟩
    · rintro ⟨rfl, hadopted⟩
      exact ⟨rfl, hadopted⟩
    · rintro ⟨⟨⟩, hadopted⟩
      exact ⟨rfl, hadopted⟩

theorem changedOverlay?_of_asksToStop (h : asksToStop v = true) : changedOverlay? v = none := by
  unfold asksToStop at h
  split at h
  · rename_i hv
    unfold changedOverlay?
    rw [hv]
  · cases h

theorem afterAll_cons (s : Session β) (v : Json) (values : List Json) :
    s.afterAll (v :: values) = (s.handle v).1.afterAll values := rfl

theorem phase_afterAll_ne_starting (h : s.phase ≠ .starting) (values : List Json) :
    (s.afterAll values).phase ≠ .starting := by
  induction values generalizing s with
  | nil => exact h
  | cons v r ih =>
    refine ih ?_
    rw [phase_handle]
    cases hphase : s.phase with
    | starting => exact absurd hphase h
    | running =>
      dsimp only
      split <;> nofun
    | stopping => nofun

/-- A session starts until a value opens it; nothing comes while it runs before. -/
theorem find?_opens (hs : s.phase = .starting) (values : List Json) :
    ((s.afterAll values).phase = .starting → values.find? opens = none ∧
      whileRunning .starting values = []) ∧
    ((s.afterAll values).phase ≠ .starting → (values.find? opens).isSome = true) := by
  induction values generalizing s with
  | nil => exact ⟨fun _ => ⟨rfl, rfl⟩, fun h => absurd hs h⟩
  | cons v r ih =>
    rw [afterAll_cons]
    have hphase := s.phase_handle v
    rw [hs] at hphase
    cases hopens : opens v with
    | true =>
      rw [hopens, if_pos rfl] at hphase
      have hne : ((s.handle v).1.afterAll r).phase ≠ .starting :=
        phase_afterAll_ne_starting (by rw [hphase]; nofun) r
      exact ⟨fun h => absurd h hne, fun _ => by simp [hopens]⟩
    | false =>
      rw [hopens, if_neg Bool.false_ne_true] at hphase
      have hrest := ih hphase
      simpa [whileRunning, hopens] using hrest

theorem overlays_concat (hs : s.phase = .starting) (values : List Json) (v : Json) :
    overlays (values ++ [v]) =
      overlays values ++ (overlayOf? (s.afterAll values).phase v).toList := by
  obtain ⟨hstarting, hstarted⟩ := find?_opens hs values
  have happend := whileRunning_append s values [v]
  rw [hs] at happend
  unfold overlays
  rw [happend, List.find?_append, List.filterMap_append]
  cases hphase : (s.afterAll values).phase with
  | starting =>
    obtain ⟨hnone, hnothing⟩ := hstarting hphase
    rw [hnone, hnothing, whileRunning_singleton_of_ne (show Phase.starting ≠ .running by decide)]
    unfold overlayOf?
    cases hopens : opens v <;> simp [hopens]
  | running =>
    obtain ⟨u, hu⟩ := Option.isSome_iff_exists.mp (hstarted (by rw [hphase]; nofun))
    have hlast : (whileRunning .running [v]).filterMap changedOverlay? =
        (changedOverlay? v).toList := by
      show List.filterMap changedOverlay? (if asksToStop v then [] else [v]) = _
      split
      · rename_i hstops
        rw [changedOverlay?_of_asksToStop hstops]
        rfl
      · cases hchanged : changedOverlay? v <;> simp [hchanged]
    rw [hu, hlast]
    simp [overlayOf?]
  | stopping =>
    obtain ⟨u, hu⟩ := Option.isSome_iff_exists.mp (hstarted (by rw [hphase]; nofun))
    rw [hu]
    simp [overlayOf?]

/-! ## All or nothing -/

theorem of_opens (h : opens v = true) :
    ∃ id params options, Message.ofJson? v = some (.request id "initialize" params) ∧
      Params.initialize? params = some options := by
  unfold opens at h
  split at h
  · rename_i id method params hv
    obtain ⟨rfl, hparams⟩ : method = "initialize" ∧ (Params.initialize? params).isSome = true := by
      simpa using h
    obtain ⟨options, hoptions⟩ := Option.isSome_iff_exists.mp hparams
    exact ⟨id, params, options, hv, hoptions⟩
  · cases h

/-- What a session does that a value opens. -/
theorem handle_of_opens (hphase : s.phase = .starting) (hopens : opens v = true) :
    ∃ id, s.handle v = match openingOverlay? v with
      | some o => ({ (s.applySettings o).1 with phase := .running },
          (s.applySettings o).2 ++ [.send (Reply.result id Reply.capabilities)])
      | none => ({ s with phase := .running }, [.send (Reply.result id Reply.capabilities)]) := by
  obtain ⟨id, params, options, hv, hparams⟩ := of_opens hopens
  refine ⟨id, ?_⟩
  have hoverlay : openingOverlay? v = options.bind Params.overlay? := by
    unfold openingOverlay?
    rw [hv]
    dsimp only
    rw [hparams]
    rfl
  rw [hoverlay]
  unfold handle
  rw [hv]
  dsimp only
  unfold handleRequest
  rw [hphase]
  dsimp only
  rw [if_pos rfl]
  unfold start
  rw [hparams]
  dsimp only
  cases options.bind Params.overlay? <;> rfl

theorem of_changedOverlay? (h : changedOverlay? v = some o) :
    ∃ params, Message.ofJson? v = some (.notification "workspace/didChangeConfiguration" params) ∧
      (Params.settings? params).bind Params.overlay? = some o := by
  unfold changedOverlay? at h
  split at h
  · rename_i method params hv
    obtain ⟨rfl, hoverlay⟩ := Option.ite_none_right_eq_some.mp h
    exact ⟨params, hv, hoverlay⟩
  · cases h

/-- What comes of settings that a value brings; what is sent besides are replies. -/
theorem handle_of_overlay (h : overlayOf? s.phase v = some o) :
    ∃ replies : List Json, (∀ m ∈ replies, m.get? "method" = none) ∧
      s.handle v = ({ (s.applySettings o).1 with phase := .running },
        (s.applySettings o).2 ++ replies.map .send) := by
  unfold overlayOf? at h
  cases hphase : s.phase with
  | starting =>
    rw [hphase] at h
    obtain ⟨hopens, h⟩ := Option.ite_none_right_eq_some.mp h
    obtain ⟨id, hhandle⟩ := handle_of_opens hphase hopens
    rw [h] at hhandle
    refine ⟨[Reply.result id Reply.capabilities], fun m hm => ?_, hhandle⟩
    rw [List.mem_singleton.mp hm]
    simp [Reply.result, Json.ofFields, Json.get?, Json.find?_insert_of_ne, Json.find?]
  | running =>
    rw [hphase] at h
    obtain ⟨params, hv, hoverlay⟩ := of_changedOverlay? h
    refine ⟨[], fun m hm => absurd hm List.not_mem_nil, ?_⟩
    have hrunning : (s.applySettings o).1.phase = .running := by
      rw [applySettings_phase, hphase]
    rw [← hrunning, List.map_nil, List.append_nil]
    unfold handle
    rw [hv]
    dsimp only
    unfold handleNotification
    rw [if_pos hphase]
    unfold handleRunning
    rw [hoverlay]
    rfl
  | stopping =>
    rw [hphase] at h
    cases h

/-- Deeds that bring no settings. -/
def BringsNone (deeds : List Deed) : Prop := ∀ e, .tell e ∈ deeds → e.config? = none

theorem bringsNone_nil : BringsNone [] := fun _ he => absurd he List.not_mem_nil

theorem bringsNone_tell {e : Watch.Event} (h : e.config? = none) : BringsNone [.tell e] := by
  intro x hx
  cases List.mem_singleton.mp hx
  exact h

theorem bringsNone_of_sends {deeds : List Deed} (h : ∀ d ∈ deeds, ∃ m, d = .send m) :
    BringsNone deeds := by
  intro e he
  obtain ⟨m, hm⟩ := h _ he
  cases hm

theorem about_bringsNone (s : Session β) (uri : String) {deeds : DocumentId → List Deed}
    (h : ∀ id, BringsNone (deeds id)) : BringsNone (s.about uri deeds).2 := by
  unfold about
  dsimp only
  split
  · exact h _
  · exact bringsNone_nil

/-- A notification without settings leaves those in force. -/
theorem handleRunning_of_no_overlay (s : Session β) (method : String) (params : Json)
    (h : method = "workspace/didChangeConfiguration" →
      (Params.settings? params).bind Params.overlay? = none) :
    (s.handleRunning method params).1 = s ∧ BringsNone (s.handleRunning method params).2 := by
  unfold handleRunning
  split
  · split
    · exact ⟨rfl, s.about_bringsNone _ fun id => bringsNone_tell rfl⟩
    · exact ⟨rfl, bringsNone_nil⟩
  · split
    · refine ⟨rfl, s.about_bringsNone _ fun id => ?_⟩
      split
      · exact bringsNone_tell rfl
      · exact bringsNone_nil
    · exact ⟨rfl, bringsNone_nil⟩
  · split
    · refine ⟨rfl, s.about_bringsNone _ fun id e he => ?_⟩
      rcases List.mem_append.mp he with he | he
      · obtain ⟨text, -, htext⟩ := List.mem_map.mp he
        cases htext
        rfl
      · exact bringsNone_tell rfl e he
    · exact ⟨rfl, bringsNone_nil⟩
  · split
    · exact ⟨rfl, bringsNone_tell rfl⟩
    · exact ⟨rfl, bringsNone_nil⟩
  · rw [h rfl]
    exact ⟨rfl, bringsNone_nil⟩
  · exact ⟨rfl, bringsNone_nil⟩

/-- A value without settings leaves those in force, and tells the watch of none. -/
theorem handle_of_no_overlay (h : overlayOf? s.phase v = none) :
    (s.handle v).1.inForce = s.inForce ∧ BringsNone (s.handle v).2 := by
  have hsent : ∀ m : Json, BringsNone [.send m] := fun m =>
    bringsNone_of_sends fun d hd => ⟨m, List.mem_singleton.mp hd⟩
  by_cases hrunning : s.phase = .running
  · rw [hrunning] at h
    unfold overlayOf? changedOverlay? at h
    unfold handle
    cases hv : Message.ofJson? v with
    | none =>
      refine ⟨rfl, bringsNone_of_sends fun d hd => ?_⟩
      obtain ⟨id, -, rfl⟩ := List.mem_map.mp hd
      exact ⟨_, rfl⟩
    | some m =>
      rw [hv] at h
      cases m with
      | response => exact ⟨rfl, bringsNone_nil⟩
      | notification method params =>
        dsimp only at h ⊢
        unfold handleNotification
        rw [if_pos hrunning]
        obtain ⟨hsame, hnone⟩ := s.handleRunning_of_no_overlay method params
          fun hmethod => by rwa [if_pos hmethod] at h
        rw [hsame]
        exact ⟨rfl, hnone⟩
      | request id method params =>
        dsimp only
        unfold handleRequest
        rw [hrunning]
        dsimp only
        split
        · exact ⟨rfl, hsent _⟩
        · split
          · refine ⟨rfl, fun e he => ?_⟩
            rcases List.mem_cons.mp he with he | he
            · cases he
              rfl
            · exact hsent _ e he
          · split
            · exact ⟨rfl, fun e he => nomatch List.mem_singleton.mp he⟩
            · exact ⟨rfl, hsent _⟩
  · rcases handle_of_not_running hrunning v with ⟨hsame, hdeeds⟩ | ⟨hstarting, hopens, -⟩
    · rw [hsame]
      exact ⟨rfl, bringsNone_of_sends hdeeds⟩
    · rw [hstarting] at h
      unfold overlayOf? at h
      dsimp only at h
      rw [if_pos hopens] at h
      obtain ⟨id, hhandle⟩ := handle_of_opens hstarting hopens
      rw [h] at hhandle
      rw [hhandle]
      exact ⟨rfl, hsent _⟩

end Session

/-! ## Settings that a watch works by -/

namespace Watch

variable {now : Duration} {w w' : Watch} {e : Event} {c d : Config} {n : Nat}

/-- A watch works by some settings, which are the `n`-th that it was told to adopt. -/
structure WorksBy (w : Watch) (c : Config) (n : Nat) : Prop where
  options : w.options = .ofConfig c
  config : w.store.config = c.fingerprint
  /-- Requests may wait as long as the settings say. -/
  maxAge : w.queue.maxAge = (WatchOptions.ofConfig c).maxQueueAge
  /-- The bucket in use is filled as fast as they say. -/
  rate : (w.buckets.map (·.capacity)).getLast? = some (max 1 c.analysis.requestsPerMinute)
  /-- Documents have to be left alone for as long as they say. -/
  delays : w.Delays
  /-- The service is another one each time. -/
  service : w.service = n

theorem worksBy_ofOptions (c : Config) (now : Duration) :
    (ofOptions (.ofConfig c) c.fingerprint now).WorksBy c 0 :=
  ⟨rfl, rfl, rfl, rfl, fun _ hx => absurd hx List.not_mem_nil, rfl⟩

namespace WorksBy

theorem of_same (h : w.WorksBy c n) (hsame : SameSettings w w') (hdelays : w'.Delays)
    (hconfig : w'.store.config = w.store.config) : w'.WorksBy c n :=
  ⟨hsame.options.trans h.options, hconfig.trans h.config, hsame.maxAge.trans h.maxAge,
    hsame.rates ▸ h.rate, hdelays, hsame.service.trans h.service⟩

/-- Without other settings, those that a watch works by stay. -/
theorem step (h : w.WorksBy c n) (he : e.config? = none) (now : Duration) :
    (w.step now e).1.WorksBy c n := by
  have hreconfigured : e.isReconfigured = false := by cases e <;> first | rfl | cases he
  refine h.of_same (sameSettings_step hreconfigured) (fun x hx => (slot_step h.delays hx).hdelay) ?_
  rw [config_step, he]
  rfl

theorem does (h : w.WorksBy c n) {deed : Deed} (hdeed : ∀ e, deed = .tell e → e.config? = none)
    (now : Duration) : (w.does now deed).WorksBy c n := by
  cases deed with
  | send m => exact h
  | tell e => exact h.step (hdeed e rfl) now
  | sendStatus m =>
    have hinert := inert_status now w
    refine h.of_same hinert.toSameSettings ?_ (congrArg (·.config) (status_store now w))
    intro x hx
    show x.2.delay = (w.status now).2.options.debounce
    rw [hinert.options]
    exact h.delays x (hinert.debouncers ▸ hx)

theorem doAll (h : w.WorksBy c n) {deeds : List Deed} (hdeeds : Session.BringsNone deeds)
    (now : Duration) : (deeds.foldl (Watch.does now) w).WorksBy c n := by
  induction deeds generalizing w with
  | nil => exact h
  | cons deed r ih =>
    refine ih (h.does (fun e he => hdeeds e ?_) now) fun e he => hdeeds e (.tail _ he)
    rw [he]
    exact List.mem_cons_self

/-- Settings that are adopted are worked by. -/
theorem reconfigured (h : w.WorksBy c n) (d : Config) (now : Duration) :
    (w.step now (.reconfigured (.ofConfig d) d.fingerprint)).1.WorksBy d (n + 1) := by
  have hsame : SameSettings (w.adopting now (.ofConfig d) d.fingerprint)
      (w.step now (.reconfigured (.ofConfig d) d.fingerprint)).1 :=
    sameSettings_reconfigure now _ _ w
  refine ⟨hsame.options, ?_, hsame.maxAge, ?_, fun x hx => (slot_step h.delays hx).hdelay, ?_⟩
  · rw [config_step]
    rfl
  · rw [hsame.rates]
    unfold adopting
    dsimp only
    split
    · rename_i hrate
      rw [h.options] at hrate
      rw [h.rate]
      exact congrArg (some <| max 1 ·) hrate
    · rw [List.map_append, List.getLast?_append]
      rfl
  · rw [hsame.service]
    exact congrArg (· + 1) h.service

end WorksBy

end Watch

namespace Session

variable {β : Type} {s t : Session β} {o v : Json}

/-- What is laid over the settings of the file depends on them alone. -/
theorem SameGround.overlaid_eq (h : SameGround s t) (o : Json) : t.overlaid o = s.overlaid o := by
  unfold overlaid
  rw [h.environment, h.fileConfig, h.connect]

theorem adoptions_concat_ok {f : InForce β} (h : s.overlaid o = .ok f) (overlays : List Json) :
    s.adoptions (overlays ++ [o]) = s.adoptions overlays ++ [f] := by
  simp [adoptions, h, Except.toOption]

theorem adoptions_concat_error {e : SettingsError} (h : s.overlaid o = .error e)
    (overlays : List Json) : s.adoptions (overlays ++ [o]) = s.adoptions overlays := by
  simp [adoptions, h, Except.toOption]

theorem overlayOf?_of_isExit (h : isExit v = true) (p : Phase) : overlayOf? p v = none := by
  have hchanged : changedOverlay? v = none := by
    unfold isExit at h
    split at h
    · rename_i hv
      obtain rfl := of_decide_eq_true h
      unfold changedOverlay?
      rw [hv]
      rfl
    · cases h
  cases p with
  | starting => exact if_neg (by rw [Conversation.opens_of_isExit h]; exact Bool.false_ne_true)
  | running => exact hchanged
  | stopping => rfl

end Session

/-! ## Conversations -/

namespace Conversation

variable {β : Type} {c : Conversation β} {s : Session β} {now : Duration} {x : Happening}
  {v o : Json} {values : List Json}

/-- Cached results expire at the age that the settings in force say. -/
def CacheObeys (c : Conversation β) : Prop :=
  ∀ (now : Duration) (cached : CacheEntry), c.watch.store.isExpired now cached = true ↔
    Duration.ofSeconds c.session.inForce.config.analysis.cacheMaxAgeSeconds <
      now - cached.storedAt

/-- What the settings that came have to do with the state of a conversation. -/
structure Obeys (s : Session β) (values : List Json) (c : Conversation β) : Prop where
  /-- The last ones that were sound are in force, or those of the file. -/
  inForce : c.session.inForce = (s.adoptions (Session.overlays values)).getLast?.getD s.inForce
  /-- The watch works by those in force. -/
  watch : c.watch.WorksBy c.session.inForce.config
    (s.adoptions (Session.overlays values)).length
  /-- The age at which cached results expire is that of the file. -/
  cacheAge : c.watch.store.maxCacheAge = (WatchOptions.ofConfig s.fileConfig).cacheMaxAge
  cache : c.CacheObeys ↔ s.fileConfig.analysis.cacheMaxAgeSeconds =
    c.session.inForce.config.analysis.cacheMaxAgeSeconds
  /-- Settings are sound if they fit those of the file, their globs can be read, and the service can
  be reached by them. -/
  sound : ∀ o f, s.overlaid o = .ok f ↔ s.fileConfig.mergedWith s.environment o = some f.config ∧
    f.config.includeFilter = .ok f.filter ∧ s.connect f.config = .ok f.service
  /-- Those that are not sound change nothing and lead to one warning; what is sent besides are
  replies. -/
  rejected : ∀ now v o e, c.ending = none → Session.overlayOf? c.session.phase v = some o →
    s.overlaid o = .error e → ∃ replies : List Json, (∀ m ∈ replies, m.get? "method" = none) ∧
      (c.step now (.received v)).session.inForce = c.session.inForce ∧
      (c.step now (.received v)).watch = c.watch ∧
      (c.step now (.received v)).sent = c.sent ++
        Reply.warning (s!"{Product.name}: ignoring invalid settings: " ++ e.message) :: replies

/-! ### Step by step -/

theorem performAll_sends (c : Conversation β) (now : Duration) (messages : List Json) :
    ((messages.map Deed.send).foldl (perform now) c).watch = c.watch ∧
      ((messages.map Deed.send).foldl (perform now) c).sent = c.sent ++ messages := by
  induction messages generalizing c with
  | nil => exact ⟨rfl, (List.append_nil _).symm⟩
  | cons m r ih =>
    obtain ⟨hwatch, hsent⟩ := ih (c.say [m])
    exact ⟨hwatch, hsent.trans (List.append_assoc _ _ _)⟩

/-- What comes without settings brings none. -/
theorem bringsNone_deeds
    (h : ∀ v, c.ending = none → x = .received v → Session.overlayOf? c.session.phase v = none) :
    Session.BringsNone (c.deeds x) := by
  intro e he
  rcases of_mem_deeds he with ⟨v, hx, hending, hmem⟩ | hdown | ⟨t, -, hran⟩ | ⟨ticket, reply, -, ha⟩
  · exact (Session.handle_of_no_overlay (h v hending hx)).2 e hmem
  · cases hdown
    rfl
  · cases hran
    rfl
  · cases ha
    rfl

/-- What happens when a value brings settings: they are applied, and replies are sent. -/
theorem step_of_overlay (hending : c.ending = none)
    (h : Session.overlayOf? c.session.phase v = some o) (now : Duration) :
    ∃ replies : List Json, (∀ m ∈ replies, m.get? "method" = none) ∧
      (c.step now (.received v)).session.inForce = (c.session.applySettings o).1.inForce ∧
      c.step now (.received v) = (replies.map Deed.send).foldl (perform now)
        ((c.session.applySettings o).2.foldl (perform now)
          { c with
            received := c.received ++ [v]
            session := { (c.session.applySettings o).1 with phase := .running } }) := by
  obtain ⟨replies, hreplies, hhandle⟩ := Session.handle_of_overlay h
  have hexit : Session.isExit v = false := by
    cases hexit : Session.isExit v with
    | false => rfl
    | true => cases (Session.overlayOf?_of_isExit hexit _).symm.trans h
  refine ⟨replies, hreplies, ?_, ?_⟩
  · rw [step_session_handle hending, hhandle]
  · rw [step_received hending, hear_of_not_isExit hexit]
    dsimp only
    rw [hhandle, List.foldl_append]

/-- The state goes by the settings that came. -/
structure GoesBy (s : Session β) (c : Conversation β) : Prop where
  session : c.session = s.afterAll c.received
  inForce : c.session.inForce =
    (s.adoptions (Session.overlays c.received)).getLast?.getD s.inForce
  watch : c.watch.WorksBy c.session.inForce.config
    (s.adoptions (Session.overlays c.received)).length
  cacheAge : c.watch.store.maxCacheAge = (WatchOptions.ofConfig s.fileConfig).cacheMaxAge

theorem maxCacheAge_doAll (deeds : List Deed) (now : Duration) (w : Watch) :
    (deeds.foldl (Watch.does now) w).store.maxCacheAge = w.store.maxCacheAge := by
  induction deeds generalizing w with
  | nil => rfl
  | cons d r ih =>
    refine (ih _).trans ?_
    cases d with
    | send m => rfl
    | sendStatus m => exact congrArg (·.maxCacheAge) (Watch.status_store now w)
    | tell e => exact Watch.maxCacheAge_step now e w

namespace GoesBy

theorem of_overlay (h : GoesBy s c) (hs : s.phase = .starting) (hending : c.ending = none)
    (hoverlay : Session.overlayOf? c.session.phase v = some o) (now : Duration) :
    GoesBy s (c.step now (.received v)) := by
  have hreceived : (c.step now (.received v)).received = c.received ++ [v] :=
    step_received_received hending v
  have hoverlays : Session.overlays (c.step now (.received v)).received =
      Session.overlays c.received ++ [o] := by
    rw [hreceived, Session.overlays_concat hs, ← h.session, hoverlay]
    rfl
  have hoverlaid : c.session.overlaid o = s.overlaid o := by
    rw [h.session]
    exact (Session.sameGround_afterAll s c.received).overlaid_eq o
  have hage : (c.step now (.received v)).watch.store.maxCacheAge =
      (WatchOptions.ofConfig s.fileConfig).cacheMaxAge := by
    rw [watch_step, maxCacheAge_doAll]
    exact h.cacheAge
  obtain ⟨replies, -, hinForce, hstep⟩ := step_of_overlay hending hoverlay now
  have hwatch : (c.step now (.received v)).watch =
      ((c.session.applySettings o).2.foldl (Watch.does now) c.watch) := by
    rw [hstep, (performAll_sends _ now replies).1, performAll_does]
  unfold Session.applySettings at hinForce hwatch
  cases hresult : s.overlaid o with
  | ok f =>
    rw [hoverlaid, hresult] at hinForce hwatch
    refine ⟨session_step h.session now _, ?_, ?_, hage⟩
    · rw [hinForce, hoverlays, Session.adoptions_concat_ok hresult]
      simp
    · rw [hinForce, hwatch, hoverlays, Session.adoptions_concat_ok hresult, List.length_append]
      exact h.watch.reconfigured f.config now
  | error e =>
    rw [hoverlaid, hresult] at hinForce hwatch
    refine ⟨session_step h.session now _, ?_, ?_, hage⟩
    · rw [hinForce, hoverlays, Session.adoptions_concat_error hresult]
      exact h.inForce
    · rw [hinForce, hwatch, hoverlays, Session.adoptions_concat_error hresult]
      exact h.watch

theorem of_no_overlay (h : GoesBy s c) (hs : s.phase = .starting)
    (hnone : ∀ v, c.ending = none → x = .received v →
      Session.overlayOf? c.session.phase v = none) (now : Duration) :
    GoesBy s (c.step now x) := by
  have hwatch : (c.step now x).watch.WorksBy c.session.inForce.config
      (s.adoptions (Session.overlays c.received)).length := by
    rw [watch_step]
    exact h.watch.doAll (bringsNone_deeds hnone) now
  have hage : (c.step now x).watch.store.maxCacheAge =
      (WatchOptions.ofConfig s.fileConfig).cacheMaxAge := by
    rw [watch_step, maxCacheAge_doAll]
    exact h.cacheAge
  obtain ⟨hinForce, hoverlays⟩ : (c.step now x).session.inForce = c.session.inForce ∧
      Session.overlays (c.step now x).received = Session.overlays c.received := by
    by_cases hx : ∃ v, c.ending = none ∧ x = .received v
    · obtain ⟨v, hending, rfl⟩ := hx
      rw [step_session_handle hending, step_received_received hending, Session.overlays_concat hs,
        ← h.session, hnone v hending rfl]
      exact ⟨(Session.handle_of_no_overlay (hnone v hending rfl)).1, List.append_nil _⟩
    · obtain ⟨hsession, hreceived⟩ :=
        step_session_of_not (fun v hending hv => hx ⟨v, hending, hv⟩) now
      rw [hsession, hreceived]
      exact ⟨rfl, rfl⟩
  refine ⟨session_step h.session now x, ?_, ?_, hage⟩
  · rw [hinForce, hoverlays]
    exact h.inForce
  · rw [hinForce, hoverlays]
    exact hwatch

theorem step (h : GoesBy s c) (hs : s.phase = .starting) (now : Duration) (x : Happening) :
    GoesBy s (c.step now x) := by
  by_cases hx : ∃ v o, c.ending = none ∧ x = .received v ∧
      Session.overlayOf? c.session.phase v = some o
  · obtain ⟨v, o, hending, rfl, hoverlay⟩ := hx
    exact h.of_overlay hs hending hoverlay now
  · have hnone : ∀ v, c.ending = none → x = .received v →
        Session.overlayOf? c.session.phase v = none := fun v hending hv =>
      Option.eq_none_iff_forall_ne_some.mpr fun o ho => hx ⟨v, o, hending, hv, ho⟩
    exact h.of_no_overlay hs hnone now

end GoesBy

/-- The settings that came say all about the state. -/
theorem obeys_of_goesBy (h : GoesBy s c) : Obeys s c.received c := by
  refine ⟨h.inForce, h.watch, h.cacheAge, ?_, fun o f => Session.overlaid_eq_ok_iff, ?_⟩
  · have hage : c.watch.store.maxCacheAge =
        Duration.ofSeconds s.fileConfig.analysis.cacheMaxAgeSeconds := h.cacheAge
    unfold CacheObeys DocumentStore.isExpired
    rw [hage]
    constructor
    · intro hexpires
      -- a result is as old as the moment says that was cached at the start
      have hages : ∀ now : Duration, Duration.ofSeconds s.fileConfig.analysis.cacheMaxAgeSeconds <
          now ↔ Duration.ofSeconds c.session.inForce.config.analysis.cacheMaxAgeSeconds < now :=
        fun now => decide_eq_true_iff.symm.trans (hexpires now ⟨⟨⟨""⟩, ⟨""⟩, ⟨""⟩⟩, [], 0⟩)
      have hsame : Duration.ofSeconds s.fileConfig.analysis.cacheMaxAgeSeconds =
          Duration.ofSeconds c.session.inForce.config.analysis.cacheMaxAgeSeconds :=
        eq_of_forall_gt_iff hages
      exact Nat.eq_of_mul_eq_mul_right (show 0 < Duration.nanosPerSecond by decide) hsame
    · intro hsame now cached
      rw [hsame]
      exact decide_eq_true_iff
  · intro now v o e hending hoverlay herror
    obtain ⟨replies, hreplies, hinForce, hstep⟩ := step_of_overlay hending hoverlay now
    have hoverlaid : c.session.overlaid o = .error e := by
      rw [h.session, (Session.sameGround_afterAll s c.received).overlaid_eq o]
      exact herror
    unfold Session.applySettings at hinForce hstep
    rw [hoverlaid] at hinForce hstep
    refine ⟨replies, hreplies, hinForce, ?_, ?_⟩
    · rw [hstep, (performAll_sends _ now replies).1]
      rfl
    · rw [hstep, (performAll_sends _ now replies).2]
      exact List.append_assoc _ _ _

theorem goesBy_after {environment : Environment} {fileConfig : Config}
    {connect : Config → Except RemoteError β}
    (hs : Session.ofConfig environment connect fileConfig = .ok s) (begun : Duration)
    (l : List (Duration × Happening)) : GoesBy s ((ofSession s begun).after l) := by
  have hground : s.phase = .starting ∧ s.inForce.config = s.fileConfig := by
    unfold Session.ofConfig at hs
    cases hadopt : Session.adopt connect fileConfig with
    | error e =>
      rw [hadopt] at hs
      cases hs
    | ok inForce =>
      rw [hadopt] at hs
      cases hs
      exact ⟨rfl, (Session.adopt_eq_ok_iff.mp hadopt).1⟩
  have hstart : GoesBy s (ofSession s begun) := by
    refine ⟨rfl, rfl, ?_, rfl⟩
    show (s.watch begun).WorksBy s.inForce.config 0
    rw [hground.2]
    exact Watch.worksBy_ofOptions s.fileConfig begun
  exact after_induction l hstart fun _ now x h => h.step hground.1 now x

/-- Whatever came in a conversation, the settings that are in force are the last ones that were sound
together with those of the file, and all that they say is done, but for the age at which cached
results expire. -/
theorem obeys_after {environment : Environment} {fileConfig : Config}
    {connect : Config → Except RemoteError β}
    (hs : Session.ofConfig environment connect fileConfig = .ok s) (begun : Duration)
    (l : List (Duration × Happening)) : Obeys s (heard l) ((ofSession s begun).after l) := by
  have hreceived : ((ofSession s begun).after l).received = heard l := received_after _ l
  rw [← hreceived]
  exact obeys_of_goesBy (goesBy_after hs begun l)

/-- Settings come three times; the last ones are not sound. -/
def threefold : List (Duration × Happening) :=
  [Editor.firstRequest, Editor.adjusted [("debounce_ms", .nat 100)],
    Editor.adjusted [("requests_per_minute", .nat 60)],
    Editor.adjusted [("debounce_ms", .string "soon")]].map fun v => (0, .received v)

/-- The second ones are in force, without the first ones. -/
theorem obeys_after_threefold :
    ∃ s : Session Unit, Session.ofConfig ⟨[]⟩ (fun _ => .ok ()) {} = .ok s ∧
      Obeys s (heard threefold) ((ofSession s 0).after threefold) ∧
      ((ofSession s 0).after threefold).session.inForce.config =
        { analysis := { requestsPerMinute := 60 } } := by
  refine ⟨⟨⟨[]⟩, {}, fun _ => .ok (), ⟨{}, .all, ()⟩, .starting⟩, rfl, ?_, by decide +kernel⟩
  exact obeys_after (s := ⟨⟨[]⟩, {}, fun _ => .ok (), ⟨{}, .all, ()⟩, .starting⟩)
    (show Session.ofConfig ⟨[]⟩ (fun _ => .ok ()) {} = .ok _ from rfl) 0 threefold

/-- Results are to expire after a second. -/
def impatient : List (Duration × Happening) :=
  [Editor.firstRequest, Editor.adjusted [("cache_max_age_seconds", .nat 1)]].map
    fun v => (0, .received v)

/-- They expire as the file says. -/
theorem not_cacheObeys_impatient :
    ¬ ((start ⟨[]⟩ {} (fun _ => .ok ()) ⟨{}, .all, ()⟩ 0).after impatient).CacheObeys := by
  have hs : Session.ofConfig ⟨[]⟩ (fun _ => .ok ()) {} =
    .ok ⟨⟨[]⟩, {}, fun _ => .ok (), ⟨{}, .all, ()⟩, .starting⟩ := rfl
  intro hobeys
  have hsame := (obeys_of_goesBy (goesBy_after hs 0 impatient)).cache.mp hobeys
  revert hsame
  decide +kernel

end Conversation

end SmellWatch
