import SmellWatch.Proofs.Editor.Lifecycle
/-! What a conversation makes of its session and of its watch.

The session is what the values that came make of it, one after the other (`session_after`); some of
them came while it ran (`Session.whileRunning`).  Whatever happens is a list of deeds
(`Conversation.deeds`), and the watch is what these deeds make of it (`Conversation.watch_step`).  To
look at the status fills a bucket up and leaves all else (`Watch.inert_status`). -/

namespace SmellWatch

/-! ## Sessions -/

namespace Session

variable {β : Type} {s : Session β} {v : Json} {values : List Json}

/-- The session after some values. -/
def afterAll (s : Session β) (values : List Json) : Session β :=
  values.foldl (fun s v => (s.handle v).1) s

theorem afterAll_append (s : Session β) (before after : List Json) :
    s.afterAll (before ++ after) = (s.afterAll before).afterAll after := List.foldl_append

theorem afterAll_concat (s : Session β) (values : List Json) (v : Json) :
    s.afterAll (values ++ [v]) = ((s.afterAll values).handle v).1 := by
  rw [afterAll_append]
  rfl

/-- The values that come while a session runs that is in this phase at first.  The value that asks
it to shut down is none of them. -/
def whileRunning : Phase → List Json → List Json
  | .starting, v :: r => whileRunning (if opens v then .running else .starting) r
  | .running, v :: r => if asksToStop v then [] else v :: whileRunning .running r
  | _, _ => []

@[simp] theorem whileRunning_nil (p : Phase) : whileRunning p [] = [] := by
  cases p <;> rfl

@[simp] theorem whileRunning_stopping (values : List Json) : whileRunning .stopping values = [] := by
  cases values <;> rfl

theorem whileRunning_singleton_of_ne {p : Phase} (h : p ≠ .running) (v : Json) :
    whileRunning p [v] = [] := by
  cases p with
  | starting =>
    unfold whileRunning
    split <;> rfl
  | running => exact absurd rfl h
  | stopping => rfl

theorem mem_whileRunning_singleton {p : Phase} {u : Json} (h : u ∈ whileRunning p [v]) :
    p = .running ∧ u = v ∧ whileRunning p [v] = [v] := by
  by_cases hp : p = .running
  · subst hp
    unfold whileRunning at h ⊢
    split at h
    · exact absurd h List.not_mem_nil
    · rw [if_neg ‹_›]
      exact ⟨rfl, List.mem_singleton.mp h, rfl⟩
  · rw [whileRunning_singleton_of_ne hp] at h
    exact absurd h List.not_mem_nil

theorem whileRunning_append (s : Session β) (values rest : List Json) :
    whileRunning s.phase (values ++ rest) =
      whileRunning s.phase values ++ whileRunning (s.afterAll values).phase rest := by
  induction values generalizing s with
  | nil =>
    rw [whileRunning_nil]
    rfl
  | cons u r ih =>
    have hrest := ih (s.handle u).1
    have hphase := s.phase_handle u
    rw [List.cons_append]
    show _ = _ ++ whileRunning ((s.handle u).1.afterAll r).phase rest
    cases hs : s.phase with
    | starting =>
      rw [hs] at hphase
      rw [hphase] at hrest
      exact hrest
    | running =>
      rw [hs] at hphase
      cases hstops : asksToStop u with
      | false =>
        rw [hphase, hstops, if_neg Bool.false_ne_true] at hrest
        simp only [whileRunning, hstops, Bool.false_eq_true, if_false, hrest, List.cons_append]
      | true =>
        rw [hphase, hstops, if_pos rfl, whileRunning_stopping, whileRunning_stopping] at hrest
        simp only [whileRunning, hstops, if_true]
        exact hrest
    | stopping =>
      rw [hs] at hphase
      rw [hphase, whileRunning_stopping, whileRunning_stopping] at hrest
      exact hrest

/-- The end of a session changes nothing in it. -/
theorem handle_of_isExit (h : isExit v = true) : (s.handle v).1 = s := by
  unfold isExit at h
  unfold handle
  split at h
  · rename_i method params hv
    obtain rfl : method = "exit" := by simpa using h
    rw [hv]
    unfold handleNotification
    dsimp only
    split <;> rfl
  · cases h

/-- What a session is founded on stays. -/
structure SameGround (s t : Session β) : Prop where
  environment : t.environment = s.environment
  fileConfig : t.fileConfig = s.fileConfig
  connect : t.connect = s.connect

theorem SameGround.refl (s : Session β) : SameGround s s := ⟨rfl, rfl, rfl⟩

theorem sameGround_applySettings (s : Session β) (overlay : Json) :
    SameGround s (s.applySettings overlay).1 := by
  unfold applySettings
  split <;> exact ⟨rfl, rfl, rfl⟩

theorem sameGround_handleRunning (s : Session β) (method : String) (params : Json) :
    SameGround s (s.handleRunning method params).1 := by
  unfold handleRunning
  repeat' split
  all_goals first | exact .refl s | exact sameGround_applySettings s _

theorem sameGround_start (s : Session β) (id params : Json) :
    SameGround s (s.start id params).1 := by
  unfold start
  split
  · exact .refl s
  · dsimp only
    split
    · rename_i overlay _
      obtain ⟨h₁, h₂, h₃⟩ := sameGround_applySettings s overlay
      exact ⟨h₁, h₂, h₃⟩
    · exact ⟨rfl, rfl, rfl⟩

theorem sameGround_handle (s : Session β) (v : Json) : SameGround s (s.handle v).1 := by
  unfold handle
  cases Message.ofJson? v with
  | none => exact .refl s
  | some m =>
    cases m with
    | response => exact .refl s
    | request id method params =>
      dsimp only
      unfold handleRequest
      dsimp only
      repeat' split
      all_goals first | exact .refl s | exact sameGround_start s id params | exact ⟨rfl, rfl, rfl⟩
    | notification method params =>
      dsimp only
      unfold handleNotification
      split
      · exact sameGround_handleRunning s method params
      · exact .refl s

theorem sameGround_afterAll (s : Session β) (values : List Json) :
    SameGround s (s.afterAll values) := by
  induction values generalizing s with
  | nil => exact .refl s
  | cons v r ih =>
    obtain ⟨h₁, h₂, h₃⟩ := ih (s.handle v).1
    obtain ⟨k₁, k₂, k₃⟩ := sameGround_handle s v
    exact ⟨h₁.trans k₁, h₂.trans k₂, h₃.trans k₃⟩

end Session

/-! ## Watches -/

namespace Watch

variable {now : Duration} {w : Watch}

/-- A look at the status draws on the bucket in use at most. -/
theorem status_snd (now : Duration) (w : Watch) :
    (w.status now).2 = w ∨ ∃ x, w.drawOn w.bucket (·.available now) = some (x, (w.status now).2) := by
  unfold status
  cases hdraw : w.drawOn w.bucket (·.available now) with
  | none => exact .inl rfl
  | some x => exact .inr ⟨x.1, rfl⟩

theorem inert_status (now : Duration) (w : Watch) : Inert w (w.status now).2 := by
  rcases status_snd now w with h | ⟨x, h⟩
  · rw [h]
    exact .refl w
  · exact inert_drawOn (fun _ => rfl) h

theorem status_eq (now : Duration) (w : Watch) :
    ∃ buckets, (w.status now).2 = { w with buckets } := by
  rcases status_snd now w with h | ⟨x, h⟩
  · exact ⟨w.buckets, h⟩
  · exact drawOn_eq h

@[simp] theorem status_store (now : Duration) (w : Watch) :
    (w.status now).2.store = w.store := by
  obtain ⟨buckets, h⟩ := status_eq now w
  rw [h]

/-- What a deed makes of the watch. -/
def does (now : Duration) (w : Watch) : Deed → Watch
  | .send _ => w
  | .sendStatus _ => (w.status now).2
  | .tell e => (w.step now e).1

end Watch

/-! ## Conversations -/

namespace Conversation

variable {β : Type} {c : Conversation β} {now : Duration}

/-- What is done when something happens. -/
def deeds (c : Conversation β) : Happening → List Deed
  | .received v =>
    if c.ending.isSome then []
    else if Session.isExit v then [.tell .shutDown]
    else (c.session.handle v).2
  | .hungUp | .garbled _ => if c.ending.isSome then [] else [.tell .shutDown]
  | .ran t => [.tell (.ran t)]
  | .answered ticket reply => [.tell (.answered ticket reply)]
  | .wrote | .muted => []

/-- What can be done: what the session does about a value, or one thing that the watch is told. -/
theorem of_mem_deeds {x : Happening} {d : Deed} (h : d ∈ c.deeds x) :
    (∃ v, x = .received v ∧ c.ending = none ∧ d ∈ (c.session.handle v).2) ∨ d = .tell .shutDown ∨
      (∃ t, x = .ran t ∧ d = .tell (.ran t)) ∨
      ∃ ticket reply, x = .answered ticket reply ∧ d = .tell (.answered ticket reply) := by
  have hdown : d ∈ (if c.ending.isSome then [] else [Deed.tell .shutDown]) →
      d = .tell .shutDown := by
    intro hmem
    split at hmem
    · exact absurd hmem List.not_mem_nil
    · exact List.mem_singleton.mp hmem
  cases x with
  | received v =>
    unfold deeds at h
    cases hending : c.ending with
    | some e =>
      rw [hending] at h
      exact absurd h List.not_mem_nil
    | none =>
      rw [hending] at h
      dsimp only [Option.isSome_none] at h
      rw [if_neg Bool.false_ne_true] at h
      split at h
      · exact .inr (.inl (List.mem_singleton.mp h))
      · exact .inl ⟨v, rfl, rfl, h⟩
  | hungUp => exact .inr (.inl (hdown h))
  | garbled e => exact .inr (.inl (hdown h))
  | ran t => exact .inr (.inr (.inl ⟨t, rfl, List.mem_singleton.mp h⟩))
  | answered ticket reply =>
    exact .inr (.inr (.inr ⟨ticket, reply, rfl, List.mem_singleton.mp h⟩))
  | wrote => exact absurd h List.not_mem_nil
  | muted => exact absurd h List.not_mem_nil

theorem perform_watch (c : Conversation β) (now : Duration) (d : Deed) :
    (c.perform now d).watch = c.watch.does now d := by
  cases d <;> rfl

theorem performAll_does (c : Conversation β) (now : Duration) (deeds : List Deed) :
    (deeds.foldl (perform now) c).watch = deeds.foldl (Watch.does now) c.watch := by
  induction deeds generalizing c with
  | nil => rfl
  | cons d r ih =>
    rw [List.foldl_cons, List.foldl_cons, ih, perform_watch]

/-- The watch is what the deeds make of it. -/
theorem watch_step (c : Conversation β) (now : Duration) (x : Happening) :
    (c.step now x).watch = (c.deeds x).foldl (Watch.does now) c.watch := by
  have hfinish : ∀ e : Serving.Ending, (if c.ending.isSome then c else c.finish now e).watch =
      List.foldl (Watch.does now) c.watch (if c.ending.isSome then [] else [.tell .shutDown]) := by
    intro e
    split <;> rfl
  cases x with
  | received v =>
    show (if c.ending.isSome then c else _).watch =
      List.foldl _ _ (if c.ending.isSome then [] else _)
    cases c.ending.isSome with
    | true => rfl
    | false =>
      show (hear now v _).watch = List.foldl _ _ (if Session.isExit v then _ else _)
      cases hexit : Session.isExit v with
      | true =>
        rw [hear_of_isExit hexit]
        rfl
      | false =>
        rw [hear_of_not_isExit hexit]
        exact performAll_does _ now _
  | hungUp => exact hfinish _
  | garbled e => exact hfinish _
  | _ => rfl

/-- A session handles what comes from an editor that is listened to. -/
theorem step_session_handle (h : c.ending = none) (now : Duration) (v : Json) :
    (c.step now (.received v)).session = (c.session.handle v).1 := by
  rw [step_received_session h]
  split
  · rename_i hexit
    exact (Session.handle_of_isExit hexit).symm
  · rfl

/-- What does not come from an editor that is listened to has nothing to do with the session. -/
theorem step_session_of_not {x : Happening} (h : ∀ v, c.ending = none → x ≠ .received v)
    (now : Duration) :
    (c.step now x).session = c.session ∧ (c.step now x).received = c.received := by
  by_cases hx : ∀ v, x ≠ .received v
  · exact step_session hx now
  · obtain ⟨v, rfl⟩ : ∃ v, x = .received v := by simpa using hx
    have hover : c.ending.isSome = true := by
      rw [Option.isSome_iff_ne_none]
      exact fun hending => h v hending rfl
    rw [step_over hover]
    exact ⟨rfl, rfl⟩

/-- The session stays what the values that came make of it. -/
theorem session_step {s : Session β} (h : c.session = s.afterAll c.received) (now : Duration)
    (x : Happening) : (c.step now x).session = s.afterAll (c.step now x).received := by
  by_cases hx : ∃ v, c.ending = none ∧ x = .received v
  · obtain ⟨v, hending, rfl⟩ := hx
    rw [step_session_handle hending, step_received_received hending, Session.afterAll_concat, ← h]
  · obtain ⟨hsession, hreceived⟩ :=
      step_session_of_not (fun v hending hv => hx ⟨v, hending, hv⟩) now
    rw [hsession, hreceived]
    exact h

theorem session_after (environment : Environment) (fileConfig : Config)
    (connect : Config → Except RemoteError β) (inForce : InForce β) (begun : Duration)
    (l : List (Duration × Happening)) :
    ((start environment fileConfig connect inForce begun).after l).session =
      Session.afterAll { environment, fileConfig, connect, inForce } (heard l) := by
  have hreceived : ((start environment fileConfig connect inForce begun).after l).received =
      heard l := received_after _ l
  rw [← hreceived]
  exact after_induction (P := fun c => c.session = Session.afterAll _ c.received) l rfl
    fun _ now x h => session_step h now x

end Conversation

/-! ## What an editor says -/

namespace Editor

/-- The first request, without settings. -/
def firstRequest : Json := .ofFields [("id", .nat 1), ("method", .string "initialize")]

def shutDown : Json := .ofFields [("id", .nat 2), ("method", .string "shutdown")]

def opened (uri text : String) : Json :=
  Reply.notification "textDocument/didOpen"
    (.ofFields [("textDocument", .ofFields [("uri", .string uri), ("text", .string text)])])

def changed (uri : String) (texts : List String) : Json :=
  Reply.notification "textDocument/didChange"
    (.ofFields
      [("textDocument", .ofFields [("uri", .string uri)]),
        ("contentChanges", .array (texts.map fun text => .ofFields [("text", .string text)]))])

def closed (uri : String) : Json :=
  Reply.notification "textDocument/didClose"
    (.ofFields [("textDocument", .ofFields [("uri", .string uri)])])

/-- Settings for the analysis are sent. -/
def adjusted (analysis : List (String × Json)) : Json :=
  Reply.notification "workspace/didChangeConfiguration"
    (.ofFields [("settings", .ofFields [("analysis", .ofFields analysis)])])

end Editor

end SmellWatch
