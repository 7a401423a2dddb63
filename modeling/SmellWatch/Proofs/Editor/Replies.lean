import Mathlib.Data.List.Forall2
import SmellWatch.Proofs.Editor.Conversation
import SmellWatch.Proofs.Watch.Causes
/-! One reply for each request.

A value asks to be answered if it is a request, or if it has an id and is no message at all
(`Message.asked?`).  Whatever the session does about a value, the deed that answers it is the last
one, and no other deed sends anything with an id (`Session.handle_settle`).  All the rest that is
sent are notifications.  So the messages with an id are the replies, in the order in which the
values came (`Conversation.one_reply_each`). -/

namespace SmellWatch

variable {id v m : Json}

/-! ## Requests and replies -/

namespace Message

/-- The id under which a value asks to be answered: it is a request, or it has an id and is no
message. -/
def asked? (v : Json) : Option Json :=
  (v.get? "id").bind fun id =>
    if ((v.get? "method").bind Json.string?).isSome ∨
        (v.get? "result").isNone ∧ (v.get? "error").isNone then some id
    else none

def carriesId (m : Json) : Bool := (m.get? "id").isSome

/-- A message answers under an id, either with a result or with an error. -/
structure Answers (id m : Json) : Prop where
  echoes : m.get? "id" = some id
  either : (m.get? "result").isSome = !(m.get? "error").isSome

theorem Answers.carriesId (h : Answers id m) : carriesId m = true := by
  unfold Message.carriesId
  rw [h.echoes]
  rfl

/-- Requests ask to be answered. -/
theorem asked?_of_request {method : String} {params : Json}
    (h : ofJson? v = some (.request id method params)) : asked? v = some id := by
  unfold ofJson? at h
  dsimp only at h
  split at h
  · rename_i hid hmethod
    cases h
    unfold asked?
    rw [hid, hmethod, Option.bind_some, if_pos (.inl rfl)]
  · cases h
  · split at h <;> cases h
  · cases h

theorem asked?_of_notification {method : String} {params : Json}
    (h : ofJson? v = some (.notification method params)) : asked? v = none := by
  unfold ofJson? at h
  dsimp only at h
  split at h
  · cases h
  · rename_i hid hmethod
    unfold asked?
    rw [hid]
    rfl
  · split at h <;> cases h
  · cases h

theorem asked?_of_response (h : ofJson? v = some .response) : asked? v = none := by
  unfold ofJson? at h
  dsimp only at h
  split at h
  · cases h
  · cases h
  · rename_i id' hid hmethod
    split at h
    · rename_i hgiven
      unfold asked?
      rw [hid, hmethod]
      refine if_neg ?_
      rw [Bool.or_eq_true] at hgiven
      rw [← Option.not_isSome, ← Option.not_isSome]
      rcases hgiven with hgiven | hgiven <;> simp [hgiven]
    · cases h
  · cases h

/-- What is no message asks to be answered if it has an id. -/
theorem asked?_of_none (h : ofJson? v = none) : asked? v = v.get? "id" := by
  unfold ofJson? at h
  dsimp only at h
  split at h
  · cases h
  · cases h
  · rename_i id' hid hmethod
    split at h
    · cases h
    · rename_i hgiven
      unfold asked?
      rw [hid, hmethod]
      refine if_pos (.inr ?_)
      rw [Bool.or_eq_true, not_or] at hgiven
      rw [← Option.not_isSome, ← Option.not_isSome]
      simp [hgiven.1, hgiven.2]
  · rename_i hid hmethod
    unfold asked?
    rw [hid]
    rfl

end Message

open Message

namespace Reply

theorem answers_result (id value : Json) : Answers id (result id value) := by
  constructor
  all_goals simp [result, Json.ofFields, Json.get?, Json.find?_insert_self,
    Json.find?_insert_of_ne, Json.find?]

theorem answers_refusal (id : Json) (r : Refusal) (text : String) :
    Answers id (refusal id r text) := by
  constructor
  all_goals simp [refusal, Json.ofFields, Json.get?, Json.find?_insert_self,
    Json.find?_insert_of_ne, Json.find?]

theorem carriesId_notification (method : String) (params : Json) :
    carriesId (notification method params) = false := by
  simp [carriesId, notification, Json.ofFields, Json.get?, Json.find?_insert_of_ne, Json.find?]

end Reply

/-! ## Deeds -/

namespace Deed

/-- A deed answers under an id. -/
inductive Replies (id : Json) : Deed → Prop
  | send (m : Json) (h : Answers id m) : Replies id (.send m)
  | status : Replies id (.sendStatus id)

/-- A deed sends nothing with an id; it may tell the watch what the editor does. -/
inductive IsSilent : Deed → Prop
  | send (m : Json) (h : carriesId m = false) : IsSilent (.send m)
  | tell (e : Watch.Event) (h : e.isOfEditor = true) : IsSilent (.tell e)

/-- Deeds answer what asks to be answered, at last, and nothing else. -/
inductive Settle : Option Json → List Deed → Prop
  | nothing (deeds : List Deed) (h : ∀ d ∈ deeds, d.IsSilent) : Settle none deeds
  | reply (id : Json) (deeds : List Deed) (d : Deed) (h : ∀ d ∈ deeds, d.IsSilent)
      (hd : d.Replies id) : Settle (some id) (deeds ++ [d])

theorem Settle.refusal (id : Json) (r : Reply.Refusal) (text : String) :
    Settle (some id) [.send (Reply.refusal id r text)] :=
  .reply id [] _ (fun _ h => nomatch h) (.send _ (Reply.answers_refusal id r text))

theorem Settle.result {deeds : List Deed} (h : ∀ d ∈ deeds, d.IsSilent) (id value : Json) :
    Settle (some id) (deeds ++ [.send (Reply.result id value)]) :=
  .reply id deeds _ h (.send _ (Reply.answers_result id value))

theorem Settle.each {asked : Option Json} {deeds : List Deed} (h : Settle asked deeds) :
    ∀ d ∈ deeds, d.IsSilent ∨ ∃ id, d.Replies id := by
  cases h with
  | nothing _ h => exact fun d hd => .inl (h d hd)
  | reply id deeds d h hreply =>
    intro x hx
    rcases List.mem_append.mp hx with hx | hx
    · exact .inl (h x hx)
    · exact .inr ⟨id, List.mem_singleton.mp hx ▸ hreply⟩

end Deed

namespace Session

variable {β : Type}

open Deed

theorem applySettings_silent (s : Session β) (overlay : Json) :
    ∀ d ∈ (s.applySettings overlay).2, d.IsSilent := by
  intro d hd
  unfold applySettings at hd
  split at hd
  · cases List.mem_singleton.mp hd
    exact .tell _ rfl
  · cases List.mem_singleton.mp hd
    exact .send _ (Reply.carriesId_notification _ _)

theorem start_settle (s : Session β) (id params : Json) :
    Settle (some id) (s.start id params).2 := by
  unfold start
  split
  · exact .refusal id _ _
  · rename_i options hoptions
    dsimp only
    refine Settle.result ?_ id _
    split
    · exact s.applySettings_silent _
    · exact fun _ h => nomatch h

/-- A request is answered in every phase. -/
theorem handleRequest_settle (s : Session β) (id : Json) (method : String) (params : Json) :
    Settle (some id) (s.handleRequest id method params).2 := by
  unfold handleRequest
  dsimp only
  split
  · split
    · exact s.start_settle id params
    · exact .refusal id _ _
  · exact .refusal id _ _
  · split
    · exact .refusal id _ _
    · split
      · have hsilent : ∀ d ∈ [Deed.tell .shutDown], d.IsSilent :=
          fun d hd => List.mem_singleton.mp hd ▸ .tell _ rfl
        exact .result hsilent id _
      · split
        · exact .reply id [] _ (fun _ h => nomatch h) .status
        · exact .refusal id _ _

theorem handleRunning_silent (s : Session β) (method : String) (params : Json) :
    ∀ d ∈ (s.handleRunning method params).2, d.IsSilent := by
  have habout : ∀ (uri : String) (deeds : DocumentId → List Deed),
      (∀ id, ∀ d ∈ deeds id, d.IsSilent) → ∀ d ∈ (s.about uri deeds).2, d.IsSilent := by
    intro uri deeds h d hd
    unfold about at hd
    dsimp only at hd
    split at hd
    · exact h _ d hd
    · exact absurd hd List.not_mem_nil
  have hnothing : ∀ d ∈ ([] : List Deed), d.IsSilent := fun _ h => nomatch h
  have htell : ∀ e : Watch.Event, e.isOfEditor = true → ∀ d ∈ [Deed.tell e], d.IsSilent :=
    fun e he d hd => List.mem_singleton.mp hd ▸ .tell e he
  unfold handleRunning
  split
  · split
    · exact habout _ _ fun id => htell _ rfl
    · exact hnothing
  · split
    · refine habout _ _ fun id => ?_
      split
      · exact htell _ rfl
      · exact hnothing
    · exact hnothing
  · split
    · refine habout _ _ fun id d hd => ?_
      rcases List.mem_append.mp hd with hd | hd
      · obtain ⟨text, -, rfl⟩ := List.mem_map.mp hd
        exact .tell _ rfl
      · exact htell _ rfl d hd
    · exact hnothing
  · split
    · exact htell _ rfl
    · exact hnothing
  · split
    · exact s.applySettings_silent _
    · exact hnothing
  · exact hnothing

/-- What the session does about a value answers it, if it asks to be answered. -/
theorem handle_settle (s : Session β) (v : Json) : Settle (asked? v) (s.handle v).2 := by
  unfold handle
  split
  · rename_i id method params hv
    rw [asked?_of_request hv]
    exact s.handleRequest_settle id method params
  · rename_i method params hv
    rw [asked?_of_notification hv]
    refine .nothing _ ?_
    unfold handleNotification
    split
    · exact s.handleRunning_silent method params
    · exact fun _ h => nomatch h
  · rename_i hv
    rw [asked?_of_response hv]
    exact .nothing _ fun _ h => nomatch h
  · rename_i hv
    rw [asked?_of_none hv]
    cases v.get? "id" with
    | none => exact .nothing _ fun _ h => nomatch h
    | some id => exact .refusal id _ _

end Session

namespace Conversation

variable {β : Type} {c : Conversation β} {now : Duration}

/-! ## What is said -/

theorem say_say (c : Conversation β) (l l' : List Json) :
    (c.say l).say l' = c.say (l ++ l') := by
  unfold say Outbox.sendAll
  simp only [List.foldl_append, List.append_assoc]

theorem say_nil (c : Conversation β) : c.say [] = c := by
  unfold say
  simp only [List.append_nil]
  rfl

theorem filter_carriesId_of_silent {messages : List Json}
    (h : ∀ m ∈ messages, carriesId m = false) : messages.filter carriesId = [] :=
  List.filter_eq_nil_iff.mpr fun m hm => by rw [h m hm]; decide

/-- What the watch publishes carries no id. -/
theorem carriesId_published (fx : List Watch.Effect) :
    ∀ m ∈ fx.filterMap Watch.Effect.message?, carriesId m = false := by
  intro m hm
  obtain ⟨x, -, hx⟩ := List.mem_filterMap.mp hm
  obtain ⟨p, -, rfl⟩ := Option.map_eq_some_iff.mp hx
  exact Reply.carriesId_notification _ _

theorem perform_silent {d : Deed} (h : d.IsSilent) (c : Conversation β) (now : Duration) :
    ∃ watch messages, c.perform now d = { c with watch }.say messages ∧
      ∀ m ∈ messages, carriesId m = false := by
  cases h with
  | send m h => exact ⟨c.watch, [m], rfl, fun x hx => List.mem_singleton.mp hx ▸ h⟩
  | tell e _ => exact ⟨_, _, rfl, carriesId_published _⟩

theorem perform_reply {d : Deed} (h : d.Replies id) (c : Conversation β) (now : Duration) :
    ∃ watch m, c.perform now d = { c with watch }.say [m] ∧ Answers id m := by
  cases h with
  | send m h => exact ⟨c.watch, m, rfl, h⟩
  | status => exact ⟨_, _, rfl, Reply.answers_result id _⟩

theorem performAll_silent {deeds : List Deed} (h : ∀ d ∈ deeds, d.IsSilent) (c : Conversation β)
    (now : Duration) :
    ∃ watch messages, deeds.foldl (perform now) c = { c with watch }.say messages ∧
      ∀ m ∈ messages, carriesId m = false := by
  induction deeds generalizing c with
  | nil => exact ⟨c.watch, [], (say_nil c).symm, fun _ hm => nomatch hm⟩
  | cons d r ih =>
    obtain ⟨watch, messages, hd, hmessages⟩ := perform_silent (h d List.mem_cons_self) c now
    obtain ⟨watch', more, hr, hmore⟩ :=
      ih (fun x hx => h x (List.mem_cons_of_mem _ hx)) (c.perform now d)
    refine ⟨watch', messages ++ more, ?_, fun m hm => ?_⟩
    · rw [List.foldl_cons, hr, hd, ← say_say]
      rfl
    · exact (List.mem_append.mp hm).elim (hmessages m) (hmore m)

/-- Deeds that settle a value say one reply, if the value asks for one. -/
theorem performAll_settle {asked : Option Json} {deeds : List Deed} (h : Deed.Settle asked deeds)
    (c : Conversation β) (now : Duration) :
    ∃ watch messages, deeds.foldl (perform now) c = { c with watch }.say messages ∧
      List.Forall₂ Answers asked.toList (messages.filter carriesId) := by
  cases h with
  | nothing deeds h =>
    obtain ⟨watch, messages, hc, hmessages⟩ := performAll_silent h c now
    refine ⟨watch, messages, hc, ?_⟩
    rw [filter_carriesId_of_silent hmessages]
    exact .nil
  | reply id deeds d h hd =>
    obtain ⟨watch, messages, hc, hmessages⟩ := performAll_silent h c now
    obtain ⟨watch', m, hd, hm⟩ := perform_reply hd (deeds.foldl (perform now) c) now
    refine ⟨watch', messages ++ [m], ?_, ?_⟩
    · rw [List.foldl_append, List.foldl_cons, List.foldl_nil, hd, hc, ← say_say]
      rfl
    · rw [List.filter_append, filter_carriesId_of_silent hmessages, List.nil_append,
        List.filter_cons_of_pos hm.carriesId]
      exact .cons hm .nil

/-! ## What is written -/

/-- How the outbox stands in a conversation. -/
inductive Posted (c : Conversation β) : Prop
  /-- All that was sent is to be written. -/
  | going (hending : c.ending = none) (h : c.outbox.Tracks c.sent none)
  /-- What was sent since the end carries no id. -/
  | ended (before late : List Json) (hending : c.ending.isSome = true)
      (hsent : c.sent = before ++ late) (h : c.outbox.Tracks before (some late))
      (hlate : ∀ m ∈ late, carriesId m = false)

namespace Posted

theorem of_going (h : c.Posted) (hending : c.ending = none) : c.outbox.Tracks c.sent none := by
  cases h with
  | going _ h => exact h
  | ended _ _ hover =>
    rw [hending] at hover
    cases hover

theorem stepWatch (h : c.Posted) (now : Duration) (e : Watch.Event) :
    (c.stepWatch now e).Posted := by
  cases h with
  | going hending h => exact .going hending (h.sendAll _)
  | ended before late hending hsent h hlate =>
    refine .ended before _ hending ?_ (h.sendAllLate _) fun m hm => ?_
    · show c.sent ++ _ = _
      rw [hsent, List.append_assoc]
    · exact (List.mem_append.mp hm).elim (hlate m) (carriesId_published _ m)

theorem finish (h : c.Posted) (hending : c.ending = none) (now : Duration)
    (x : Serving.Ending) : (c.finish now x).Posted := by
  have h := (h.stepWatch now .shutDown).of_going hending
  exact .ended _ [] rfl (List.append_nil _).symm h.stop fun _ hm => nomatch hm

end Posted

/-! ## Replies, step by step -/

theorem asked?_of_isExit (h : Session.isExit v = true) : asked? v = none := by
  unfold Session.isExit at h
  split at h
  · rename_i hv
    exact asked?_of_notification hv
  · cases h

/-- The messages with an id that were sent answer what was received, and are on their way. -/
structure Answered (c : Conversation β) : Prop where
  replies : List.Forall₂ Answers (c.received.filterMap asked?) (c.sent.filter carriesId)
  posted : c.Posted

namespace Answered

theorem stepWatch (h : c.Answered) (now : Duration) (e : Watch.Event) :
    (c.stepWatch now e).Answered := by
  refine ⟨?_, h.posted.stepWatch now e⟩
  show List.Forall₂ Answers _ ((c.sent ++ _).filter carriesId)
  rw [List.filter_append, filter_carriesId_of_silent (carriesId_published _), List.append_nil]
  exact h.replies

theorem finish (h : c.Answered) (hending : c.ending = none) (now : Duration)
    (x : Serving.Ending) : (c.finish now x).Answered :=
  ⟨(h.stepWatch now .shutDown).replies, h.posted.finish hending now x⟩

/-- A value is answered when it comes, if it asks for it. -/
theorem received (h : c.Answered) (hending : c.ending = none) (now : Duration) (v : Json) :
    (c.step now (.received v)).Answered := by
  have hasked : (c.received ++ [v]).filterMap asked? =
      c.received.filterMap asked? ++ (asked? v).toList := by
    rw [List.filterMap_append]
    cases hv : asked? v <;> simp [hv]
  rw [step_received hending]
  cases hexit : Session.isExit v with
  | true =>
    have hanswered : ({ c with received := c.received ++ [v] } : Conversation β).Answered := by
      refine ⟨?_, .going hending (h.posted.of_going hending)⟩
      show List.Forall₂ Answers ((c.received ++ [v]).filterMap asked?) _
      rw [hasked, asked?_of_isExit hexit, Option.toList_none, List.append_nil]
      exact h.replies
    rw [hear_of_isExit hexit]
    exact hanswered.finish hending now _
  | false =>
    obtain ⟨watch, messages, hc, hmessages⟩ :=
      performAll_settle (c.session.handle_settle v)
        { c with received := c.received ++ [v], session := (c.session.handle v).1 } now
    rw [hear_of_not_isExit hexit, hc]
    refine ⟨?_, .going hending ((h.posted.of_going hending).sendAll messages)⟩
    show List.Forall₂ Answers ((c.received ++ [v]).filterMap asked?)
      ((c.sent ++ messages).filter carriesId)
    rw [hasked, List.filter_append]
    exact List.rel_append h.replies hmessages

theorem step (h : c.Answered) (now : Duration) (x : Happening) : (c.step now x).Answered := by
  have hover : ∀ c' : Conversation β, (c.ending = none → c'.Answered) →
      (if c.ending.isSome then c else c').Answered := by
    intro c' h'
    split
    · exact h
    · rename_i hgoing
      exact h' (Option.not_isSome_iff_eq_none.mp hgoing)
  have houtbox : ∀ outbox : Outbox Json,
      (∀ sent stopped, c.outbox.Tracks sent stopped → outbox.Tracks sent stopped) →
      ({ c with outbox } : Conversation β).Answered := by
    intro outbox htracks
    refine ⟨h.replies, ?_⟩
    cases h.posted with
    | going hending h => exact .going hending (htracks _ _ h)
    | ended before late hending hsent h hlate =>
      exact .ended before late hending hsent (htracks _ _ h) hlate
  cases x with
  | received v =>
    cases hending : c.ending with
    | none => exact h.received hending now v
    | some x =>
      rw [step_over (by rw [hending]; rfl)]
      exact h
  | hungUp => exact hover _ fun hending => h.finish hending now _
  | garbled e => exact hover _ fun hending => h.finish hending now _
  | ran t => exact h.stepWatch now _
  | answered ticket reply => exact h.stepWatch now _
  | wrote => exact houtbox _ fun _ _ h => h.step
  | muted => exact houtbox _ fun _ _ h => h.mute

end Answered

/-! ## Replies of a whole conversation -/

theorem answered_after (environment : Environment) (fileConfig : Config)
    (connect : Config → Except RemoteError β) (inForce : InForce β) (begun : Duration)
    (l : List (Duration × Happening)) :
    ((start environment fileConfig connect inForce begun).after l).Answered :=
  after_induction l ⟨.nil, .going rfl .new⟩ fun _ now x h => h.step now x

/-- When the writer has ended, all replies are written, unless nobody reads. -/
theorem Posted.written_eq (h : c.Posted) (hreturned : c.HasReturned)
    (hread : c.outbox.muted = false) :
    c.outbox.written.filter carriesId = c.sent.filter carriesId := by
  obtain ⟨hover, hended⟩ := hreturned
  cases h with
  | going hending =>
    rw [hending] at hover
    cases hover
  | ended before late _ hsent h hlate =>
    rw [h.written_eq hended hread, hsent, List.filter_append, filter_carriesId_of_silent hlate,
      List.append_nil]

theorem Posted.written_prefix (h : c.Posted) : c.outbox.written <+: c.sent := by
  cases h with
  | going _ h => exact h.written_prefix
  | ended before late _ hsent h => exact hsent ▸ h.written_prefix.trans (List.prefix_append _ _)

theorem after_wrote (c : Conversation β) (times : List Duration) :
    c.after (times.map fun t => (t, .wrote)) =
      { c with outbox := times.foldl (fun o _ => o.step) c.outbox } := by
  induction times generalizing c with
  | nil => rfl
  | cons t r ih => exact ih _

/-- When the conversation is over, the writer ends as soon as it has taken the orders. -/
theorem Posted.returns (h : c.Posted) (hover : c.ending.isSome = true) {times : List Duration}
    (htimes : c.outbox.orders.length ≤ times.length) :
    (c.after (times.map fun t => (t, .wrote))).HasReturned := by
  rw [after_wrote]
  cases h with
  | going hending =>
    rw [hending] at hover
    cases hover
  | ended before late _ hsent h hlate => exact ⟨hover, h.ended_of_steps times htimes⟩

/-- The messages with an id that are sent are one reply for each value that asks for one, in the
order in which the values came.  What is written is a beginning of what is sent; when the server
returns, which it does as soon as the writer has taken its orders, it holds every reply, unless
nobody reads. -/
theorem one_reply_each (environment : Environment) (fileConfig : Config)
    (connect : Config → Except RemoteError β) (inForce : InForce β) (begun : Duration)
    (l : List (Duration × Happening)) :
    let c := (start environment fileConfig connect inForce begun).after l
    List.Forall₂ Answers ((heard l).filterMap asked?) (c.sent.filter carriesId) ∧
      c.outbox.written <+: c.sent ∧
      (c.ending.isSome = true → ∀ times : List Duration, c.outbox.orders.length ≤ times.length →
        (c.after (times.map fun t => (t, .wrote))).HasReturned) ∧
      (c.HasReturned → c.outbox.muted = false →
        c.outbox.written.filter carriesId = c.sent.filter carriesId) := by
  intro c
  have h : c.Answered := answered_after environment fileConfig connect inForce begun l
  have hreceived : c.received = heard l := by
    show (Conversation.after _ l).received = _
    rw [received_after]
    rfl
  refine ⟨hreceived ▸ h.replies, h.posted.written_prefix, fun hover times htimes => ?_,
    h.posted.written_eq⟩
  exact h.posted.returns hover htimes

end Conversation

end SmellWatch
