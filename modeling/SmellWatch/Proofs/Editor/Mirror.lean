import SmellWatch.Proofs.Editor.Deeds
/-! The server mirrors the texts of the editor.

A value may say something of the text of a document (`Session.saysOf?`): that it is this one, or,
when the document is closed, that there is none.  A document that the include filter lets through
is open in the store exactly if a text of it was said since it was closed last, and its content is
the text that was said last (`Conversation.mirrors_after`); what else is said and done in between
makes no difference.  A text with the fingerprint of the one before is not taken in, so the texts
that are said have to have fingerprints of their own. -/

namespace SmellWatch

/-! ## What is said of a text -/

/-- What a notification says of the text of a document. -/
def Params.saysOf? (uri method : String) (params : Json) : Option (Option String) :=
  match method with
  | "textDocument/didOpen" =>
    (opened? params).bind fun (u, text) => if u = uri then some (some text) else none
  | "textDocument/didChange" =>
    (changed? params).bind fun (u, texts) => if u = uri then texts.getLast?.map some else none
  | "textDocument/didSave" =>
    (saved? params).bind fun (u, text) => if u = uri then text.map some else none
  | "textDocument/didClose" =>
    (closed? params).bind fun u => if u = uri then some none else none
  | _ => none

/-- What an event says of the text of a document. -/
def Watch.Event.saysOf? (id : DocumentId) : Watch.Event → Option (Option String)
  | .opened d text | .changed d text => if d = id then some (some text) else none
  | .closed d => if d = id then some none else none
  | _ => none

/-- A text of a document is said when it is opened or changed; there is none when it is closed. -/
theorem Watch.Event.of_saysOf? {e : Watch.Event} {id : DocumentId} {said : Option String}
    (h : e.saysOf? id = some said) :
    (∃ text, said = some text ∧ (e = .opened id text ∨ e = .changed id text)) ∨
      said = none ∧ e = .closed id := by
  cases e with
  | opened d text =>
    obtain ⟨rfl, hsaid⟩ := Option.ite_none_right_eq_some.mp h
    exact .inl ⟨text, (Option.some.inj hsaid).symm, .inl rfl⟩
  | changed d text =>
    obtain ⟨rfl, hsaid⟩ := Option.ite_none_right_eq_some.mp h
    exact .inl ⟨text, (Option.some.inj hsaid).symm, .inr rfl⟩
  | closed d =>
    obtain ⟨rfl, hsaid⟩ := Option.ite_none_right_eq_some.mp h
    exact .inr ⟨(Option.some.inj hsaid).symm, rfl⟩
  | _ => cases h

def Deed.saysOf? (id : DocumentId) : Deed → Option (Option String)
  | .tell e => e.saysOf? id
  | _ => none

namespace Session

variable {β : Type} {s : Session β} {uri : String} {v : Json} {values : List Json}

/-- What a value says of the text of a document: that it is this one, or that there is none. -/
def saysOf? (uri : String) (v : Json) : Option (Option String) :=
  match Message.ofJson? v with
  | some (.notification method params) => Params.saysOf? uri method params
  | _ => none

/-- What was said last of the text of a document. -/
def lastSaid? (uri : String) (values : List Json) : Option (Option String) :=
  values.reverse.findSome? (saysOf? uri)

/-- The texts of a document that were said. -/
def textsOf (uri : String) (values : List Json) : List String :=
  values.filterMap fun v => (saysOf? uri v).join

/-- The texts of a document that were said have fingerprints of their own. -/
def TellsApart (uri : String) (values : List Json) : Prop :=
  ∀ old ∈ textsOf uri values, ∀ new ∈ textsOf uri values,
    Fingerprint.ofText old = Fingerprint.ofText new → old = new

/-- The include filter lets a document through whenever a value comes while the session runs. -/
def AlwaysTracks (uri : String) : Session β → List Json → Prop
  | _, [] => True
  | s, v :: r => (s.phase = .running → s.tracks uri = true) ∧ AlwaysTracks uri (s.handle v).1 r

instance decidableAlwaysTracks (uri : String) :
    (s : Session β) → (values : List Json) → Decidable (AlwaysTracks uri s values)
  | _, [] => isTrue trivial
  | s, v :: r =>
    have := decidableAlwaysTracks uri (s.handle v).1 r
    inferInstanceAs (Decidable ((s.phase = .running → s.tracks uri = true) ∧
      AlwaysTracks uri (s.handle v).1 r))

instance (uri : String) (values : List Json) : Decidable (TellsApart uri values) :=
  inferInstanceAs (Decidable (∀ old ∈ textsOf uri values, ∀ new ∈ textsOf uri values,
    Fingerprint.ofText old = Fingerprint.ofText new → old = new))

theorem alwaysTracks_concat (uri : String) (s : Session β) (values : List Json) (v : Json) :
    AlwaysTracks uri s (values ++ [v]) ↔ AlwaysTracks uri s values ∧
      ((s.afterAll values).phase = .running → (s.afterAll values).tracks uri = true) := by
  induction values generalizing s with
  | nil => exact ⟨fun h => ⟨trivial, h.1⟩, fun h => ⟨h.2, trivial⟩⟩
  | cons u r ih =>
    show _ ∧ AlwaysTracks uri _ (r ++ [v]) ↔ (_ ∧ AlwaysTracks uri _ r) ∧ _
    rw [ih, and_assoc]
    rfl

/-! ## What was said last -/

theorem lastSaid?_append (uri : String) (before after : List Json) :
    lastSaid? uri (before ++ after) = (lastSaid? uri after).or (lastSaid? uri before) := by
  unfold lastSaid?
  rw [List.reverse_append, List.findSome?_append]

/-- Of what is said before and what is said now, the latter counts. -/
theorem join_lastSaid?_append (uri : String) (before after : List Json) :
    (lastSaid? uri (before ++ after)).join =
      (lastSaid? uri after).getD (lastSaid? uri before).join := by
  rw [lastSaid?_append]
  cases lastSaid? uri after <;> rfl

theorem lastSaid?_singleton (uri : String) (v : Json) : lastSaid? uri [v] = saysOf? uri v := by
  unfold lastSaid?
  rw [List.reverse_singleton, List.findSome?_singleton]

theorem lastSaid?_eq_some {said : Option String} (h : lastSaid? uri values = some said) :
    ∃ before v after, values = before ++ v :: after ∧ saysOf? uri v = some said ∧
      ∀ u ∈ after, saysOf? uri u = none := by
  obtain ⟨after, v, before, hvalues, hsaid, hafter⟩ := List.findSome?_eq_some_iff.mp h
  refine ⟨before.reverse, v, after.reverse, ?_, hsaid, fun u hu => hafter u (by simpa using hu)⟩
  rw [← values.reverse_reverse, hvalues]
  simp

/-- If the document was not closed since a text of it was said, the last that was said of it is a
text. -/
theorem exists_lastSaid?_of_open (before : List Json) {after : List Json} {text : String}
    (hsaid : saysOf? uri v = some (some text)) (hafter : ∀ u ∈ after, saysOf? uri u ≠ some none) :
    ∃ last, lastSaid? uri (before ++ v :: after) = some (some last) := by
  rw [List.append_cons, lastSaid?_append, lastSaid?_append, lastSaid?_singleton, hsaid]
  cases hlast : lastSaid? uri after with
  | none => exact ⟨text, rfl⟩
  | some said =>
    obtain ⟨_, u, rest, hvalues, hu, -⟩ := lastSaid?_eq_some hlast
    cases said with
    | none => exact absurd hu (hafter u (by simp [hvalues]))
    | some last => exact ⟨last, rfl⟩

theorem textsOf_append (uri : String) (before after : List Json) :
    textsOf uri (before ++ after) = textsOf uri before ++ textsOf uri after := by
  unfold textsOf
  rw [List.filterMap_append]

theorem mem_textsOf_of_lastSaid? {text : String} (h : lastSaid? uri values = some (some text)) :
    text ∈ textsOf uri values := by
  obtain ⟨before, v, after, rfl, hsaid, -⟩ := lastSaid?_eq_some h
  refine List.mem_filterMap.mpr ⟨v, List.mem_append_right _ List.mem_cons_self, ?_⟩
  rw [hsaid]
  rfl

/-! ## Deeds that say something of a text -/

theorem saysOf?_applySettings (s : Session β) (overlay : Json) (id : DocumentId) :
    (s.applySettings overlay).2.filterMap (Deed.saysOf? id) = [] := by
  refine List.filterMap_eq_nil_iff.mpr fun d hd => ?_
  rcases s.applySettings_deeds overlay d hd with ⟨m, rfl⟩ | ⟨options, config, rfl⟩ <;> rfl

/-- The deeds about a document: there are none unless it is let through. -/
theorem saysOf?_about (s : Session β) (uri other : String) (deeds : DocumentId → List Deed)
    (helse : ∀ id : DocumentId, id ≠ ⟨uri⟩ → (deeds id).filterMap (Deed.saysOf? ⟨uri⟩) = []) :
    (s.about other deeds).2.filterMap (Deed.saysOf? ⟨uri⟩) =
      if other = uri ∧ s.tracks uri = true then (deeds ⟨uri⟩).filterMap (Deed.saysOf? ⟨uri⟩)
      else [] := by
  unfold about
  dsimp only
  by_cases hother : other = uri
  · subst hother
    by_cases htracks : s.tracks other = true
    · rw [if_pos htracks, if_pos ⟨rfl, htracks⟩]
    · rw [if_neg htracks, if_neg (fun h : _ ∧ _ => htracks h.2)]
      rfl
  · rw [if_neg (fun h : other = uri ∧ _ => hother h.1)]
    split
    · exact helse _ fun h => hother (congrArg DocumentId.name h)
    · rfl

/-- What a session that runs passes on of what is said: everything of a document that is let
through, and of another one that it is closed. -/
def passesOn? (s : Session β) (uri : String) (said : Option (Option String)) :
    Option (Option String) :=
  said.filter fun text => s.tracks uri || text.isNone

theorem passesOn?_of_tracks (h : s.tracks uri = true) (said : Option (Option String)) :
    s.passesOn? uri said = said := by
  unfold passesOn?
  rw [h]
  cases said <;> rfl

@[simp] theorem passesOn?_none (s : Session β) (uri : String) : s.passesOn? uri none = none := rfl

@[simp] theorem passesOn?_closed (s : Session β) (uri : String) :
    s.passesOn? uri (some none) = some none := by
  unfold passesOn?
  simp [Option.filter]

theorem passesOn?_text (s : Session β) (uri text : String) :
    s.passesOn? uri (some (some text)) = if s.tracks uri = true then some (some text) else none := by
  unfold passesOn?
  cases s.tracks uri <;> rfl

theorem of_passesOn?_text {said : Option (Option String)} {text : String}
    (h : s.passesOn? uri said = some (some text)) :
    said = some (some text) ∧ s.tracks uri = true := by
  obtain ⟨hsaid, hpasses⟩ := Option.filter_eq_some_iff.mp h
  exact ⟨hsaid, by simpa using hpasses⟩

theorem saysOf?_handleRunning (s : Session β) (uri method : String) (params : Json) :
    (s.handleRunning method params).2.filterMap (Deed.saysOf? ⟨uri⟩) =
      (s.passesOn? uri (Params.saysOf? uri method params)).toList := by
  unfold handleRunning Params.saysOf?
  split
  · cases Params.opened? params with
    | none => rfl
    | some opened =>
      obtain ⟨u, text⟩ := opened
      dsimp only [Option.bind_some]
      rw [saysOf?_about s uri u]
      · by_cases hu : u = uri <;> cases ht : s.tracks uri <;>
          simp [Deed.saysOf?, Watch.Event.saysOf?, passesOn?_text, hu, ht]
      · intro id hne
        simp [Deed.saysOf?, Watch.Event.saysOf?, hne]
  · cases Params.changed? params with
    | none => rfl
    | some changed =>
      obtain ⟨u, texts⟩ := changed
      dsimp only [Option.bind_some]
      rw [saysOf?_about s uri u]
      · cases texts.getLast? with
        | none => by_cases hu : u = uri <;> simp [hu]
        | some text =>
          by_cases hu : u = uri <;> cases ht : s.tracks uri <;>
            simp [Deed.saysOf?, Watch.Event.saysOf?, passesOn?_text, hu, ht]
      · intro id hne
        cases texts.getLast? <;> simp [Deed.saysOf?, Watch.Event.saysOf?, hne]
  · cases Params.saved? params with
    | none => rfl
    | some saved =>
      obtain ⟨u, text⟩ := saved
      dsimp only [Option.bind_some]
      rw [saysOf?_about s uri u]
      · cases text with
        | none => by_cases hu : u = uri <;> simp [Deed.saysOf?, Watch.Event.saysOf?, hu]
        | some text =>
          by_cases hu : u = uri <;> cases ht : s.tracks uri <;>
            simp [Deed.saysOf?, Watch.Event.saysOf?, passesOn?_text, hu, ht]
      · intro id hne
        cases text <;> simp [Deed.saysOf?, Watch.Event.saysOf?, hne]
  · cases Params.closed? params with
    | none => rfl
    | some u =>
      by_cases hu : u = uri <;> simp [Deed.saysOf?, Watch.Event.saysOf?, hu]
  · cases (Params.settings? params).bind Params.overlay? with
    | none => rfl
    | some overlay => exact saysOf?_applySettings s overlay _
  · split <;> first | contradiction | rfl

/-- What is passed on to the watch while the session runs. -/
theorem saysOf?_handle (h : s.phase = .running) (uri : String) (v : Json) :
    (s.handle v).2.filterMap (Deed.saysOf? ⟨uri⟩) = (s.passesOn? uri (saysOf? uri v)).toList := by
  unfold handle saysOf?
  cases Message.ofJson? v with
  | none =>
    refine List.filterMap_eq_nil_iff.mpr fun d hd => ?_
    obtain ⟨id, -, rfl⟩ := List.mem_map.mp hd
    rfl
  | some m =>
    cases m with
    | response => rfl
    | notification method params =>
      dsimp only
      unfold handleNotification
      rw [if_pos h]
      exact saysOf?_handleRunning s uri method params
    | request id method params =>
      dsimp only
      unfold handleRequest
      rw [h]
      dsimp only
      repeat' split
      all_goals rfl

/-- Nothing is passed on while the session does not run. -/
theorem saysOf?_handle_of_not_running (h : s.phase ≠ .running) (v : Json) (id : DocumentId) :
    (s.handle v).2.filterMap (Deed.saysOf? id) = [] := by
  refine List.filterMap_eq_nil_iff.mpr fun d hd => ?_
  rcases handle_of_not_running h v with ⟨-, hdeeds⟩ | ⟨-, -, hdeeds⟩
  · obtain ⟨m, rfl⟩ := hdeeds d hd
    rfl
  · rcases hdeeds d hd with ⟨m, rfl⟩ | ⟨options, config, rfl⟩ <;> rfl

theorem saysOf?_of_isExit (h : isExit v = true) (uri : String) : saysOf? uri v = none := by
  unfold isExit at h
  split at h
  · rename_i method params hv
    obtain rfl : method = "exit" := by simpa using h
    unfold saysOf?
    rw [hv]
    rfl
  · cases h

theorem saysOf?_of_asksToStop (h : asksToStop v = true) (uri : String) : saysOf? uri v = none := by
  unfold asksToStop at h
  split at h
  · rename_i hv
    unfold saysOf?
    rw [hv]
  · cases h

end Session

/-! ## What a watch has of a text -/

namespace Watch

variable {now : Duration} {id : DocumentId} {w : Watch} {text : Option String}

/-- The content of a document stays when nothing is said of its text. -/
theorem content?_step {e : Event} (h : e.saysOf? id = none) (now : Duration) (w : Watch) :
    (w.step now e).1.store.content? id = w.store.content? id := by
  have hne : ∀ (d : DocumentId) (said : Option String),
      (if d = id then some said else none) = none → id ≠ d := by
    intro d said hdeed hd
    rw [if_pos hd.symm] at hdeed
    cases hdeed
  cases e with
  | opened d new =>
    exact (DocumentStore.content?_congr (contents_update now d new w) id).trans
      (DocumentStore.content?_upsert_of_ne (hne d _ h))
  | changed d new =>
    exact (DocumentStore.content?_congr (contents_update now d new w) id).trans
      (DocumentStore.content?_upsert_of_ne (hne d _ h))
  | closed d => exact DocumentStore.content?_remove_of_ne (hne d _ h)
  | _ => exact DocumentStore.content?_congr (contents_step_of_silent rfl (by rintro d ⟨⟩) now w) id

theorem content?_does {d : Deed} (h : d.saysOf? id = none) (now : Duration) (w : Watch) :
    (w.does now d).store.content? id = w.store.content? id := by
  cases d with
  | send m => rfl
  | sendStatus m =>
    show (w.status now).2.store.content? id = _
    rw [status_store]
  | tell e => exact content?_step h now w

/-- The watch has this text of a document, or none if the document is not open; and all entries
have the fingerprints of their texts. -/
structure HasText (w : Watch) (id : DocumentId) (text : Option String) : Prop where
  content : w.store.content? id = text
  printed : w.store.About fun content fp => fp = Fingerprint.ofText content

/-- What an event says of the text of a document takes the place of the text before. -/
theorem HasText.step (h : w.HasText id text) {e : Event}
    (hapart : ∀ old new, text = some old → e.saysOf? id = some (some new) →
      Fingerprint.ofText old = Fingerprint.ofText new → old = new) (now : Duration) :
    (w.step now e).1.HasText id ((e.saysOf? id).getD text) := by
  refine ⟨?_, about_step h.printed (fun _ _ => rfl) now⟩
  cases hdeed : e.saysOf? id with
  | none => exact (content?_step hdeed now w).trans h.content
  | some said =>
    rcases Event.of_saysOf? hdeed with ⟨new, rfl, he⟩ | ⟨rfl, rfl⟩
    · have hcontents : (w.step now e).1.store.contents = (w.store.upsert id new).2.contents := by
        rcases he with rfl | rfl <;> exact contents_update now id new w
      rw [DocumentStore.content?_congr hcontents]
      by_cases hnews : w.store.IsNews id (Fingerprint.ofText new)
      · exact DocumentStore.content?_upsert_self hnews
      · -- the text has the fingerprint of the one before, so it is the same
        rw [DocumentStore.upsert_of_not_isNews hnews]
        obtain ⟨x, hx, hfp⟩ : ∃ x, w.store.get? id = some x ∧
            x.fingerprint = Fingerprint.ofText new := by
          simpa [DocumentStore.IsNews] using hnews
        have hcontent : w.store.content? id = some x.content := by
          unfold DocumentStore.content?
          rw [hx]
          rfl
        rw [hcontent]
        refine congrArg some (hapart _ _ (h.content.symm.trans hcontent) hdeed ?_)
        exact (h.printed.of_get? hx).symm.trans hfp
    · exact DocumentStore.content?_remove_self

theorem HasText.of_store {w' : Watch} (h : w.HasText id text) (hstore : w'.store = w.store) :
    w'.HasText id text := by
  refine ⟨?_, ?_⟩ <;> rw [hstore]
  · exact h.content
  · exact h.printed

theorem HasText.does (h : w.HasText id text) {d : Deed}
    (hapart : ∀ old new, text = some old → d.saysOf? id = some (some new) →
      Fingerprint.ofText old = Fingerprint.ofText new → old = new) (now : Duration) :
    (w.does now d).HasText id ((d.saysOf? id).getD text) := by
  cases d with
  | send m => exact h
  | sendStatus m => exact h.of_store (status_store now w)
  | tell e => exact h.step hapart now

/-- What deeds say of the text of a document, once at most, takes the place of the text before. -/
theorem HasText.doAll (h : w.HasText id text) {deeds : List Deed} {said : Option (Option String)}
    (hsaid : deeds.filterMap (Deed.saysOf? id) = said.toList)
    (hapart : ∀ old new, text = some old → said = some (some new) →
      Fingerprint.ofText old = Fingerprint.ofText new → old = new) (now : Duration) :
    (deeds.foldl (Watch.does now) w).HasText id (said.getD text) := by
  induction deeds generalizing w text said with
  | nil =>
    obtain rfl : said = none := Option.toList_eq_nil_iff.mp hsaid.symm
    exact h
  | cons d r ih =>
    rw [List.foldl_cons]
    cases hdeed : d.saysOf? id with
    | none =>
      have hone := h.does (fun _ _ _ hnew => nomatch hdeed.symm.trans hnew) now
      rw [hdeed] at hone
      rw [List.filterMap_cons_none hdeed] at hsaid
      exact ih hone hsaid hapart
    | some new =>
      rw [List.filterMap_cons_some hdeed] at hsaid
      obtain ⟨rfl, hrest⟩ : said = some new ∧ r.filterMap (Deed.saysOf? id) = [] := by
        cases said with
        | none => cases hsaid
        | some m =>
          obtain ⟨rfl, hrest⟩ := List.cons.inj hsaid
          exact ⟨rfl, hrest⟩
      have hone := h.does (fun a b ha hb => hapart a b ha (hdeed.symm.trans hb)) now
      rw [hdeed] at hone
      exact ih hone (hrest.trans (Option.toList_none _).symm) fun _ _ _ hnew => nomatch hnew

end Watch

namespace Conversation

variable {β : Type} {c : Conversation β} {uri : String} {values : List Json}

/-- What a watch has of a document is what was said: it is open if a text of it was said since it
was closed last, and it has the text that was said last. -/
structure Mirrors (uri : String) (values : List Json) (w : Watch) : Prop where
  isOpen : (∃ d, w.store.get? ⟨uri⟩ = some d) ↔ ∃ before v text after,
    values = before ++ v :: after ∧ Session.saysOf? uri v = some (some text) ∧
      ∀ u ∈ after, Session.saysOf? uri u ≠ some none
  content : ∀ d, w.store.get? ⟨uri⟩ = some d → ∃ before v after,
    values = before ++ v :: after ∧ Session.saysOf? uri v = some (some d.content) ∧
      ∀ u ∈ after, Session.saysOf? uri u = none

/-- It is enough that the text is what was said last. -/
theorem mirrors_of_hasText {w : Watch}
    (h : w.HasText ⟨uri⟩ (Session.lastSaid? uri values).join) : Mirrors uri values w := by
  have hlast : ∀ d, w.store.get? ⟨uri⟩ = some d →
      Session.lastSaid? uri values = some (some d.content) := by
    intro d hd
    have hcontent : w.store.content? ⟨uri⟩ = some d.content := by
      unfold DocumentStore.content?
      rw [hd]
      rfl
    exact Option.join_eq_some_iff.mp (h.content.symm.trans hcontent)
  refine ⟨⟨?_, ?_⟩, fun d hd => Session.lastSaid?_eq_some (hlast d hd)⟩
  · rintro ⟨d, hd⟩
    obtain ⟨before, v, after, hvalues, hsaid, hafter⟩ := Session.lastSaid?_eq_some (hlast d hd)
    exact ⟨before, v, d.content, after, hvalues, hsaid, fun u hu => by rw [hafter u hu]; nofun⟩
  · rintro ⟨before, v, text, after, rfl, hsaid, hafter⟩
    obtain ⟨last, hlast⟩ := Session.exists_lastSaid?_of_open before hsaid hafter
    have hcontent := h.content
    rw [hlast] at hcontent
    obtain ⟨d, hd, -⟩ := Option.map_eq_some_iff.mp hcontent
    exact ⟨d, hd⟩

/-! ## Conversations -/

/-- What is passed on to the watch when a value comes. -/
theorem saysOf?_deeds (h : c.ending = none) (uri : String) (v : Json) :
    (c.deeds (.received v)).filterMap (Deed.saysOf? ⟨uri⟩) =
      (c.session.passesOn? uri
        (Session.lastSaid? uri (Session.whileRunning c.session.phase [v]))).toList := by
  have hdeeds : c.deeds (.received v) =
      if Session.isExit v then [.tell .shutDown] else (c.session.handle v).2 := by
    unfold deeds
    rw [h]
    rfl
  rw [hdeeds]
  by_cases hrunning : c.session.phase = .running
  · have hlast : Session.lastSaid? uri (Session.whileRunning c.session.phase [v]) =
        Session.saysOf? uri v := by
      rw [hrunning]
      show Session.lastSaid? uri (if Session.asksToStop v then [] else [v]) = _
      split
      · rename_i hstops
        rw [Session.saysOf?_of_asksToStop hstops]
        rfl
      · exact Session.lastSaid?_singleton uri v
    rw [hlast]
    split
    · rename_i hexit
      rw [Session.saysOf?_of_isExit hexit]
      rfl
    · exact Session.saysOf?_handle hrunning uri v
  · rw [Session.whileRunning_singleton_of_ne hrunning]
    split
    · rfl
    · exact Session.saysOf?_handle_of_not_running hrunning v _

/-- What does not come from an editor that is listened to says nothing. -/
theorem saysOf?_deeds_of_not {x : Happening} (h : ∀ v, c.ending = none → x ≠ .received v)
    (id : DocumentId) : (c.deeds x).filterMap (Deed.saysOf? id) = [] := by
  have hover : (if c.ending.isSome then [] else [Deed.tell .shutDown]).filterMap
      (Deed.saysOf? id) = [] := by
    split <;> rfl
  cases x with
  | received v =>
    cases hending : c.ending with
    | none => exact absurd rfl (h v hending)
    | some e =>
      unfold deeds
      rw [hending]
      rfl
  | hungUp => exact hover
  | garbled e => exact hover
  | _ => rfl

/-- The session is what the values made of it, and the watch has the text that was said last while
it ran, if the document was let through and its texts have fingerprints of their own. -/
structure KeepsText (s : Session β) (uri : String) (c : Conversation β) : Prop where
  session : c.session = s.afterAll c.received
  text : Session.AlwaysTracks uri s c.received →
    Session.TellsApart uri (Session.whileRunning s.phase c.received) →
    c.watch.HasText ⟨uri⟩
      (Session.lastSaid? uri (Session.whileRunning s.phase c.received)).join

theorem KeepsText.step {s : Session β} (h : KeepsText s uri c) (now : Duration) (x : Happening) :
    KeepsText s uri (c.step now x) := by
  refine ⟨session_step h.session now x, ?_⟩
  by_cases hx : ∃ v, c.ending = none ∧ x = .received v
  · obtain ⟨v, hending, rfl⟩ := hx
    rw [step_received_received hending, Session.whileRunning_append, Session.alwaysTracks_concat,
      Session.join_lastSaid?_append, watch_step, ← h.session]
    rintro ⟨hpast, htracks⟩ hapart
    unfold Session.TellsApart at hapart
    rw [Session.textsOf_append] at hapart
    have htext := h.text hpast fun a ha b hb =>
      hapart a (List.mem_append_left _ ha) b (List.mem_append_left _ hb)
    have hdeeds := saysOf?_deeds hending uri v
    have hall : c.session.passesOn? uri
        (Session.lastSaid? uri (Session.whileRunning c.session.phase [v])) =
          Session.lastSaid? uri (Session.whileRunning c.session.phase [v]) := by
      by_cases hrunning : c.session.phase = .running
      · exact Session.passesOn?_of_tracks (htracks hrunning) _
      · rw [Session.whileRunning_singleton_of_ne hrunning]
        rfl
    rw [hall] at hdeeds
    refine htext.doAll hdeeds (fun old new hold hnew => ?_) now
    exact hapart _ (List.mem_append_left _ (Session.mem_textsOf_of_lastSaid?
      (Option.join_eq_some_iff.mp hold))) _ (List.mem_append_right _
        (Session.mem_textsOf_of_lastSaid? hnew))
  · have hnot : ∀ v, c.ending = none → x ≠ .received v := fun v hending hv => hx ⟨v, hending, hv⟩
    rw [(step_session_of_not hnot now).2, watch_step]
    intro htracks hapart
    have hsilent := saysOf?_deeds_of_not hnot ⟨uri⟩
    exact (h.text htracks hapart).doAll (hsilent.trans (Option.toList_none _).symm)
      (fun _ _ _ hnew => nomatch hnew) now

/-- The store mirrors the editor: whatever happens, a document that the filter lets through is open
in the store exactly if a text of it was said since it was closed last, and its content is the text
that was said last. -/
theorem mirrors_after (environment : Environment) (fileConfig : Config)
    (connect : Config → Except RemoteError β) (inForce : InForce β) (begun : Duration)
    (l : List (Duration × Happening)) (uri : String)
    (htracks : Session.AlwaysTracks uri (start environment fileConfig connect inForce begun).session
      (heard l))
    (hapart : Session.TellsApart uri (Session.whileRunning .starting (heard l))) :
    Mirrors uri (Session.whileRunning .starting (heard l))
      ((start environment fileConfig connect inForce begun).after l).watch := by
  have hreceived : ((start environment fileConfig connect inForce begun).after l).received =
      heard l := received_after _ l
  rw [← hreceived] at htracks hapart ⊢
  have hstart : KeepsText (start environment fileConfig connect inForce begun).session uri
      (start environment fileConfig connect inForce begun) :=
    ⟨rfl, fun _ _ => ⟨rfl, fun _ hd => nomatch hd⟩⟩
  have h := after_induction l hstart fun _ now x h => h.step now x
  exact mirrors_of_hasText (h.text htracks hapart)

/-- A document is opened, changed twice in one go, closed, and changed without being opened; in
between comes what cannot be read.  What comes after the request to shut down does not count. -/
def reopened : List (Duration × Happening) :=
  let uri := "file:///w/a.go"
  [Editor.firstRequest, Editor.opened uri "x", .null, Editor.changed uri ["y", "x"],
    Editor.adjusted [("requests_per_minute", .nat 1)], Editor.closed uri,
    Editor.changed uri ["y"], Editor.shutDown, Editor.changed uri ["x"]].map
      fun v => (0, .received v)

theorem mirrors_after_reopened :
    Mirrors "file:///w/a.go" (Session.whileRunning .starting (heard reopened))
      ((start ⟨[]⟩ {} (fun _ => .ok ()) ⟨{}, .all, ()⟩ 0).after reopened).watch := by
  refine mirrors_after ⟨[]⟩ {} (fun _ => .ok ()) ⟨{}, .all, ()⟩ 0 reopened "file:///w/a.go" ?_ ?_
  · decide +kernel
  · decide +kernel

end Conversation

end SmellWatch
