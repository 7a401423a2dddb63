import SmellWatch.Proofs.Editor.Mirror
/-! Which documents are analyzed.

The include filter is asked about what the editor says of a document, and not about the calls that
wait for it.  So an analysis that is begun because of what the editor says is one of a document that
the filter in force lets through.  One that is begun when an alarm rings is one of a document that a
filter let through when a text of it was said, and that was not closed since (`Session.LetIn`);
another filter may be in force by then.  `heedsFilter_after` tells both apart, and
`not_filterDecides_narrowed` is a conversation in which the filter in force does not let the document
through. -/

namespace SmellWatch

namespace Session

variable {β : Type} {s : Session β} {uri : String} {v : Json} {values : List Json}

/-! ## Documents that were let in -/

/-- A text of a document was said while the session ran and its filter let the document through,
and the document was not closed since. -/
def LetIn (s : Session β) (uri : String) (values : List Json) : Prop :=
  ∃ before v text after, values = before ++ v :: after ∧
    (s.afterAll before).phase = .running ∧ (s.afterAll before).tracks uri = true ∧
    saysOf? uri v = some (some text) ∧
    ∀ u ∈ whileRunning (s.afterAll (before ++ [v])).phase after, saysOf? uri u ≠ some none

theorem letIn_of_said {text : String} (hrunning : (s.afterAll values).phase = .running)
    (htracks : (s.afterAll values).tracks uri = true) (hsaid : saysOf? uri v = some (some text)) :
    s.LetIn uri (values ++ [v]) :=
  ⟨values, v, text, [], rfl, hrunning, htracks, hsaid, fun u hu => by simp at hu⟩

/-- A document that was let in stays so unless it is closed. -/
theorem LetIn.concat (h : s.LetIn uri values)
    (hopen : ∀ u ∈ whileRunning (s.afterAll values).phase [v], saysOf? uri u ≠ some none) :
    s.LetIn uri (values ++ [v]) := by
  obtain ⟨before, u, text, after, rfl, hrunning, htracks, hsaid, hafter⟩ := h
  refine ⟨before, u, text, after ++ [v], by simp, hrunning, htracks, hsaid, fun x hx => ?_⟩
  rw [whileRunning_append, ← afterAll_append, ← List.append_cons] at hx
  rcases List.mem_append.mp hx with hx | hx
  · exact hafter x hx
  · exact hopen x hx

/-! ## What a session tells the watch -/

/-- An event that a session, as it is afterwards, may have told the watch: it is none of tasks, and
of documents that are saved only if the filter lets them through. -/
structure TellsOf (s : Session β) (e : Watch.Event) : Prop where
  task : ∀ t, e ≠ .ran t
  saved : ∀ id, e = .saved id → s.tracks id.name = true

theorem TellsOf.of_ne {e : Watch.Event} (htask : ∀ t, e ≠ .ran t) (hsaved : ∀ id, e ≠ .saved id) :
    s.TellsOf e := ⟨htask, fun id he => absurd he (hsaved id)⟩

variable {t : Session β} {e : Watch.Event} {deeds : List Deed} {method : String} {params : Json}

theorem tellsOf_of_about {about : DocumentId → List Deed} (ht : s.about uri about = (t, deeds))
    (habout : s.tracks uri = true → .tell e ∈ about ⟨uri⟩ → s.TellsOf e) (h : .tell e ∈ deeds) :
    t.TellsOf e := by
  unfold Session.about at ht
  obtain ⟨rfl, rfl⟩ := Prod.mk.inj ht
  split at h
  · exact habout ‹_› h
  · exact absurd h List.not_mem_nil

theorem tellsOf_applySettings {overlay : Json} (h : .tell e ∈ (s.applySettings overlay).2) :
    t.TellsOf e := by
  rcases s.applySettings_deeds overlay _ h with ⟨m, hd⟩ | ⟨options, config, hd⟩
  · cases hd
  · cases hd
    exact .of_ne nofun nofun

theorem tellsOf_handleRunning (ht : s.handleRunning method params = (t, deeds))
    (h : .tell e ∈ deeds) : t.TellsOf e := by
  have hnothing : (s, ([] : List Deed)) = (t, deeds) → t.TellsOf e := by
    rintro ⟨⟩
    exact absurd h List.not_mem_nil
  unfold handleRunning at ht
  split at ht
  · split at ht
    · refine tellsOf_of_about ht (fun _ hdeed => ?_) h
      cases List.mem_singleton.mp hdeed
      exact .of_ne nofun nofun
    · exact hnothing ht
  · split at ht
    · refine tellsOf_of_about ht (fun _ hdeed => ?_) h
      split at hdeed
      · cases List.mem_singleton.mp hdeed
        exact .of_ne nofun nofun
      · exact absurd hdeed List.not_mem_nil
    · exact hnothing ht
  · split at ht
    · refine tellsOf_of_about ht (fun htracks hdeed => ?_) h
      rcases List.mem_append.mp hdeed with hdeed | hdeed
      · obtain ⟨text, -, htext⟩ := List.mem_map.mp hdeed
        cases htext
        exact .of_ne nofun nofun
      · cases List.mem_singleton.mp hdeed
        refine ⟨nofun, fun id he => ?_⟩
        cases he
        exact htracks
    · exact hnothing ht
  · split at ht
    · obtain ⟨-, rfl⟩ := Prod.mk.inj ht
      cases List.mem_singleton.mp h
      exact .of_ne nofun nofun
    · exact hnothing ht
  · split at ht
    · have hdeeds : _ = deeds := congrArg Prod.snd ht
      exact tellsOf_applySettings (hdeeds ▸ h)
    · exact hnothing ht
  · exact hnothing ht

theorem tellsOf_handle (h : .tell e ∈ (s.handle v).2) : (s.handle v).1.TellsOf e := by
  by_cases hrunning : s.phase = .running
  · revert h
    unfold handle
    cases Message.ofJson? v with
    | none =>
      intro h
      obtain ⟨id, -, hd⟩ := List.mem_map.mp h
      cases hd
    | some m =>
      cases m with
      | response => exact fun h => absurd h List.not_mem_nil
      | notification method params =>
        dsimp only
        unfold handleNotification
        rw [if_pos hrunning]
        exact tellsOf_handleRunning rfl
      | request id method params =>
        dsimp only
        unfold handleRequest
        rw [hrunning]
        dsimp only
        intro h
        split at h
        · cases List.mem_singleton.mp h
        · split at h
          · rcases List.mem_cons.mp h with hd | hd
            · cases hd
              exact .of_ne nofun nofun
            · cases List.mem_singleton.mp hd
          · split at h <;> cases List.mem_singleton.mp h
  · rcases handle_of_not_running hrunning v with ⟨-, hdeeds⟩ | ⟨-, -, hdeeds⟩
    · obtain ⟨m, hd⟩ := hdeeds _ h
      cases hd
    · rcases hdeeds _ h with ⟨m, hd⟩ | ⟨options, config, hd⟩
      · cases hd
      · cases hd
        exact .of_ne nofun nofun

end Session

/-! ## Analyses that are begun -/

namespace Watch

variable {now : Duration} {w : Watch} {a : Analysis} {remote : Bool}

/-- The analyses that are begun when deeds are done, and whether the service is asked. -/
def begunAll (now : Duration) : List Deed → Watch → List (Analysis × Bool)
  | [], _ => []
  | d :: r, w =>
    (d.event?.bind fun e => begun? (w.step now e).2).toList ++ begunAll now r (w.does now d)

theorem exists_of_mem_begunAll {deeds : List Deed} (h : (a, remote) ∈ w.begunAll now deeds) :
    ∃ before e after, deeds = before ++ .tell e :: after ∧
      begun? ((before.foldl (does now) w).step now e).2 = some (a, remote) := by
  induction deeds generalizing w with
  | nil => exact absurd h List.not_mem_nil
  | cons d r ih =>
    rcases List.mem_append.mp h with h | h
    · obtain ⟨e, hevent, hbegun⟩ := Option.bind_eq_some_iff.mp (Option.mem_toList.mp h)
      cases d with
      | tell e' =>
        cases hevent
        exact ⟨[], e, r, rfl, hbegun⟩
      | send m => cases hevent
      | sendStatus id => cases hevent
    · obtain ⟨before, e, after, rfl, hbegun⟩ := ih h
      exact ⟨d :: before, e, after, rfl, hbegun⟩

/-- A document that is open after some deeds was open before, or a text of it was said. -/
theorem open_of_doAll {id : DocumentId} {deeds : List Deed} {said : Option (Option String)}
    (hsaid : deeds.filterMap (Deed.saysOf? id) = said.toList)
    (h : (deeds.foldl (does now) w).store.content? id ≠ none) :
    (∃ text, said = some (some text)) ∨ said = none ∧ w.store.content? id ≠ none := by
  induction deeds generalizing w said with
  | nil => exact .inr ⟨Option.toList_eq_nil_iff.mp hsaid.symm, h⟩
  | cons d r ih =>
    rw [List.foldl_cons] at h
    cases hdeed : d.saysOf? id with
    | none =>
      rw [List.filterMap_cons_none hdeed] at hsaid
      rw [← content?_does hdeed now w]
      exact ih hsaid h
    | some new =>
      rw [List.filterMap_cons_some hdeed] at hsaid
      cases said with
      | none => cases hsaid
      | some m =>
        obtain ⟨rfl, hrest⟩ := List.cons.inj hsaid
        rcases ih (hrest.trans (Option.toList_none _).symm) h with ⟨text, htext⟩ | ⟨-, hopen⟩
        · cases htext
        · cases d with
          | tell e =>
            rcases Event.of_saysOf? hdeed with ⟨text, rfl, -⟩ | ⟨rfl, rfl⟩
            · exact .inl ⟨text, rfl⟩
            · exact absurd DocumentStore.content?_remove_self hopen
          | send m => cases hdeed
          | sendStatus m => cases hdeed

end Watch

namespace Conversation

variable {β : Type} {c : Conversation β} {now : Duration} {x : Happening}

/-- The analyses that are begun when something happens. -/
def begun (now : Duration) (c : Conversation β) (x : Happening) : List (Analysis × Bool) :=
  c.watch.begunAll now (c.deeds x)

/-- The filter in force lets every document through of which an analysis is begun. -/
def FilterDecides (now : Duration) (c : Conversation β) (x : Happening) : Prop :=
  ∀ b ∈ c.begun now x, (c.step now x).session.tracks b.1.document.name = true

/-- An alarm rings and begins an analysis of a document that the filter in force does not let
through. -/
def SlipsBy (now : Duration) (c : Conversation β) (x : Happening) (uri : String) : Prop :=
  (∃ timer due, x = .ran (.debounce ⟨uri⟩ timer due)) ∧
    (∃ b ∈ c.begun now x, b.1.document = ⟨uri⟩) ∧ c.session.tracks uri = false

/-- What the include filter has to do with the analyses that are begun when something happens. -/
structure HeedsFilter (s : Session β) (values : List Json) (c : Conversation β) (now : Duration)
    (x : Happening) : Prop where
  /-- The filter in force decides about what is begun because of what the editor says. -/
  editor : ∀ v, x = .received v → c.FilterDecides now x
  /-- It decides in all cases but one. -/
  decides : c.FilterDecides now x ↔ ∀ uri, ¬ c.SlipsBy now x uri
  /-- A document that slips by was let in by an earlier filter and not closed since. -/
  letIn : ∀ uri, c.SlipsBy now x uri → s.LetIn uri values
  /-- So the filter decides as long as it lets through what was let in. -/
  steady : (∀ uri, s.LetIn uri values → c.session.tracks uri = true) → c.FilterDecides now x

/-- Every document that is open was let in. -/
structure OpensLetIn (s : Session β) (c : Conversation β) : Prop where
  session : c.session = s.afterAll c.received
  letIn : ∀ uri, c.watch.store.content? ⟨uri⟩ ≠ none → s.LetIn uri c.received

namespace OpensLetIn

variable {s : Session β}

theorem received (h : OpensLetIn s c) (hending : c.ending = none) (now : Duration) {v : Json}
    {uri : String} (hopen : (c.step now (.received v)).watch.store.content? ⟨uri⟩ ≠ none) :
    s.LetIn uri (c.received ++ [v]) := by
  rw [watch_step] at hopen
  rcases Watch.open_of_doAll (saysOf?_deeds hending uri v) hopen with
    ⟨text, hsaid⟩ | ⟨hsaid, hopen⟩
  · obtain ⟨hlast, htracks⟩ := Session.of_passesOn?_text hsaid
    obtain ⟨before, u, after, hvalues, hu, -⟩ := Session.lastSaid?_eq_some hlast
    obtain ⟨hrunning, rfl, -⟩ := Session.mem_whileRunning_singleton
      (show u ∈ Session.whileRunning c.session.phase [v] by simp [hvalues])
    rw [h.session] at hrunning htracks
    exact Session.letIn_of_said hrunning htracks hu
  · refine (h.letIn uri hopen).concat fun u hu hclosed => ?_
    rw [← h.session] at hu
    obtain ⟨-, rfl, hvalues⟩ := Session.mem_whileRunning_singleton hu
    rw [hvalues, Session.lastSaid?_singleton, hclosed, Session.passesOn?_closed] at hsaid
    cases hsaid

theorem step (h : OpensLetIn s c) (now : Duration) (x : Happening) :
    OpensLetIn s (c.step now x) := by
  refine ⟨session_step h.session now x, fun uri hopen => ?_⟩
  by_cases hx : ∃ v, c.ending = none ∧ x = .received v
  · obtain ⟨v, hending, rfl⟩ := hx
    rw [step_received_received hending]
    exact h.received hending now hopen
  · have hnot : ∀ v, c.ending = none → x ≠ .received v := fun v hending hv => hx ⟨v, hending, hv⟩
    rw [(step_session_of_not hnot now).2]
    rw [watch_step] at hopen
    have hsilent := saysOf?_deeds_of_not hnot ⟨uri⟩
    rcases Watch.open_of_doAll (hsilent.trans (Option.toList_none _).symm) hopen with
      ⟨text, hsaid⟩ | ⟨-, hopen⟩
    · cases hsaid
    · exact h.letIn uri hopen

end OpensLetIn

theorem tell_mem_deeds {e : Watch.Event} (h : .tell e ∈ c.deeds x) (now : Duration) :
    (∃ v, x = .received v ∧ (c.step now x).session.TellsOf e) ∨ e = .shutDown ∨
      (∃ t, x = .ran t ∧ e = .ran t) ∨ ∃ ticket reply, e = .answered ticket reply := by
  rcases of_mem_deeds h with ⟨v, rfl, hending, hmem⟩ | hdown | ⟨t, hx, hran⟩ | ⟨ticket, reply, -, ha⟩
  · rw [step_session_handle hending]
    exact .inl ⟨v, rfl, Session.tellsOf_handle hmem⟩
  · exact .inr (.inl (Deed.tell.inj hdown))
  · exact .inr (.inr (.inl ⟨t, hx, Deed.tell.inj hran⟩))
  · exact .inr (.inr (.inr ⟨ticket, reply, Deed.tell.inj ha⟩))

/-- What begins an analysis: a document is saved that the filter in force lets through, or an alarm
rings for one that is open. -/
theorem of_begun {b : Analysis × Bool} (h : b ∈ c.begun now x) :
    (∃ v, x = .received v ∧ (c.step now x).session.tracks b.1.document.name = true) ∨
      (∃ timer due, x = .ran (.debounce b.1.document timer due)) ∧
        c.watch.store.content? b.1.document ≠ none := by
  obtain ⟨before, e, after, hdeeds, hbegun⟩ := Watch.exists_of_mem_begunAll h
  obtain ⟨d, hopen, -, -, -, hasked⟩ := Watch.begins_step hbegun
  have htold : .tell e ∈ c.deeds x := by
    rw [hdeeds]
    exact List.mem_append_right _ List.mem_cons_self
  rcases tell_mem_deeds htold now with ⟨v, rfl, htells⟩ | rfl | ⟨t, rfl, rfl⟩ | ⟨_, _, rfl⟩
  · rcases hasked with rfl | ⟨⟨_, _, rfl⟩, -⟩
    · exact .inl ⟨v, rfl, htells.saved _ rfl⟩
    · exact absurd rfl (htells.task _)
  · rcases hasked with hsaved | ⟨⟨_, _, hran⟩, -⟩
    · cases hsaved
    · cases hran
  · rcases hasked with hsaved | ⟨⟨timer, due, hran⟩, -⟩
    · cases hsaved
    · cases hran
      -- the task is all that is told
      obtain rfl : before = [] := by
        rcases List.singleton_eq_append_iff.mp hdeeds with ⟨hbefore, -⟩ | ⟨-, hafter⟩
        · exact hbefore
        · cases hafter
      refine .inr ⟨⟨timer, due, rfl⟩, fun hclosed => ?_⟩
      exact nomatch (Option.map_eq_none_iff.mp hclosed).symm.trans hopen
  · rcases hasked with hsaved | ⟨⟨_, _, hran⟩, -⟩
    · cases hsaved
    · cases hran

theorem heedsFilter {s : Session β} (h : OpensLetIn s c) (now : Duration) (x : Happening) :
    HeedsFilter s c.received c now x := by
  have hslips : ∀ b ∈ c.begun now x, (c.step now x).session.tracks b.1.document.name = true ∨
      c.SlipsBy now x b.1.document.name := by
    intro b hb
    rcases of_begun hb with ⟨v, -, htracks⟩ | ⟨⟨timer, due, rfl⟩, -⟩
    · exact .inl htracks
    · cases htracks : c.session.tracks b.1.document.name with
      | true => exact .inl htracks
      | false => exact .inr ⟨⟨timer, due, rfl⟩, ⟨b, hb, rfl⟩, htracks⟩
  have hletIn : ∀ uri, c.SlipsBy now x uri → s.LetIn uri c.received := by
    rintro uri ⟨⟨timer, due, rfl⟩, ⟨b, hb, hdocument⟩, -⟩
    rcases of_begun hb with ⟨v, hx, -⟩ | ⟨-, hopen⟩
    · cases hx
    · exact h.letIn uri (hdocument ▸ hopen)
  refine ⟨?_, ⟨?_, fun hnone b hb => (hslips b hb).resolve_right (hnone _)⟩, hletIn, ?_⟩
  · rintro v rfl b hb
    rcases of_begun hb with ⟨_, -, htracks⟩ | ⟨⟨_, _, hx⟩, -⟩
    · exact htracks
    · cases hx
  · rintro hdecides uri ⟨⟨timer, due, rfl⟩, ⟨b, hb, hdocument⟩, huntracked⟩
    have htracks : c.session.tracks b.1.document.name = true := hdecides b hb
    rw [hdocument, huntracked] at htracks
    cases htracks
  · intro hsteady b hb
    refine (hslips b hb).resolve_right fun hslip => ?_
    exact nomatch (hsteady _ (hletIn _ hslip)).symm.trans hslip.2.2

/-- In every conversation, whatever happens next, the include filter in force decides which documents
are analyzed, but for those that an earlier one let in and for which a call waits. -/
theorem heedsFilter_after (environment : Environment) (fileConfig : Config)
    (connect : Config → Except RemoteError β) (inForce : InForce β) (begun : Duration)
    (l : List (Duration × Happening)) (now : Duration) (x : Happening) :
    HeedsFilter (start environment fileConfig connect inForce begun).session (heard l)
      ((start environment fileConfig connect inForce begun).after l) now x := by
  have hreceived : ((start environment fileConfig connect inForce begun).after l).received =
      heard l := received_after _ l
  have hstart : OpensLetIn (start environment fileConfig connect inForce begun).session
      (start environment fileConfig connect inForce begun) :=
    ⟨rfl, fun uri hopen => absurd rfl hopen⟩
  rw [← hreceived]
  exact heedsFilter (after_induction l hstart fun _ now x h => h.step now x) now x

/-- A document is opened, and settings come by which only others are analyzed. -/
def narrowed : List (Duration × Happening) :=
  [Editor.firstRequest, Editor.opened "file:///w/a.go" "x",
    Editor.adjusted [("include", .array [.string "**/*.md"])]].map fun v => (0, .received v)

/-- Half a second later the document is analyzed. -/
theorem not_filterDecides_narrowed :
    ¬ FilterDecides (Duration.ofMillis 500)
      ((start ⟨[]⟩ {} (fun _ => .ok ()) ⟨{}, .all, ()⟩ 0).after narrowed)
      (.ran (.debounce ⟨"file:///w/a.go"⟩ ⟨0, 1⟩ (Duration.ofMillis 500))) := by
  unfold FilterDecides
  decide +kernel

end Conversation

end SmellWatch
