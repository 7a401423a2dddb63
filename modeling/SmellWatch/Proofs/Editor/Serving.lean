import SmellWatch.Proofs.Editor.Hearing
import SmellWatch.Proofs.Editor.Replies
import SmellWatch.Proofs.Watch.Rehearsal
/-! A session that is served is a conversation.

Whatever comes in, in whatever pieces and at whatever times, and whatever the service does, a
session that is served makes the steps of a conversation, one after the other, and sends and writes
the same messages (`Follows`).  What happens by and by are tasks of the watch and answers of the
service (`Carries.runUntil`); the values that the stream holds are received, one after the other
(`Follows.readFor`); at last the writer takes all orders that there are.  So all that holds of every
conversation holds of every session that is served (`exists_conversation`). -/

namespace SmellWatch

namespace Happening

/-- A step of the watch that is not the editor's. -/
inductive IsWork : Happening → Prop
  | ran (t : Watch.Task) : IsWork (.ran t)
  | answered (ticket : Nat) (reply : Watch.Reply) : IsWork (.answered ticket reply)

end Happening

/-- The watch goes on without the session. -/
theorem Conversation.after_work {β : Type} {l : List (Duration × Happening)}
    (h : ∀ x ∈ l, x.2.IsWork) (c : Conversation β) :
    (c.after l).session = c.session ∧ (c.after l).ending = c.ending ∧
      (c.after l).received = c.received := by
  induction l generalizing c with
  | nil => exact ⟨rfl, rfl, rfl⟩
  | cons x r ih =>
    obtain ⟨now, x⟩ := x
    have hr := ih (fun y hy => h y (List.mem_cons_of_mem _ hy)) (c.step now x)
    cases h _ List.mem_cons_self with
    | ran t => exact hr
    | answered ticket reply => exact hr

namespace Rehearsal

open Watch

variable {σ β : Type} {r : Rehearsal σ} {c : Conversation β} {outbox : Outbox Json}
  {now : Duration}

/-- What was published, as messages. -/
def messages (r : Rehearsal σ) : List Json :=
  (r.log.published.map (·.2)).map fun (id, findings) => Serving.diagnostics id findings

/-- A rehearsal is where a conversation has led that started with this outbox. -/
structure Carries (outbox : Outbox Json) (r : Rehearsal σ) (c : Conversation β) : Prop where
  watch : c.watch = r.watch
  outbox : c.outbox = outbox.sendAll r.messages

theorem Carries.absorb (h : Carries outbox r c) (now : Duration) (e : Event) :
    Carries outbox
      (absorb now (c.watch.step now e).2 { r with watch := (c.watch.step now e).1 }).1
      (c.stepWatch now e) := by
  obtain ⟨hwatch, hpublished⟩ :=
    absorb_spec now (c.watch.step now e).2 { r with watch := (c.watch.step now e).1 }
  refine ⟨hwatch.symm, ?_⟩
  have hmessages : (c.watch.step now e).2.filterMap Effect.message? =
      ((c.watch.step now e).2.filterMap Effect.told?).map
        fun (id, findings) => Serving.diagnostics id findings := List.map_filterMap.symm
  unfold messages
  rw [hpublished, List.map_append, Outbox.sendAll_append, ← hmessages]
  show c.outbox.sendAll _ = _
  rw [h.outbox]
  rfl

/-- A step of the watch in a rehearsal is one step in the conversation, or two if a call is
answered at once. -/
theorem Carries.stepWatch (h : Carries outbox r c) (now : Duration) (e : Event) :
    Carries outbox (stepWatch now (·.step now e) r).1 (c.stepWatch now e) ∨
      calls (c.watch.step now e).2 ≠ [] ∧ ∃ ticket reply,
        Carries outbox (stepWatch now (·.step now e) r).1
          ((c.stepWatch now e).stepWatch now (.answered ticket reply)) := by
  have hnext := h.absorb now e
  have hcalls : calls (c.watch.step now e).2 = [] →
      (Rehearsal.absorb now (c.watch.step now e).2
        { r with watch := (c.watch.step now e).1 }).2.2 = none := by
    intro hnone
    obtain ⟨log, heq⟩ := absorb_of_noCall hnone now { r with watch := (c.watch.step now e).1 }
    rw [heq]
  unfold Rehearsal.stepWatch
  rw [← h.watch]
  dsimp only
  rcases habsorb : Rehearsal.absorb now (c.watch.step now e).2
    { r with watch := (c.watch.step now e).1 } with ⟨s, orders, reply⟩
  rw [habsorb] at hnext hcalls
  cases reply with
  | none => exact .inl hnext
  | some p =>
    obtain ⟨ticket, answer⟩ := p
    refine .inr ⟨fun hnone => Option.some_ne_none _ (hcalls hnone), ticket, answer, ?_⟩
    dsimp only
    rw [show s.watch.answered now ticket answer =
      (c.stepWatch now e).watch.step now (.answered ticket answer) by rw [hnext.watch]; rfl]
    exact hnext.absorb now (.answered ticket answer)

/-- What the editor does makes one step. -/
theorem Carries.happen (h : Carries outbox r c) {e : Event} (he : e.isOfEditor = true) :
    Carries outbox (r.happen e) (c.stepWatch r.time e) := by
  have hstep : Carries outbox (Rehearsal.stepWatch r.time (·.step r.time e) r).1
      (c.stepWatch r.time e) := by
    refine (h.stepWatch r.time e).resolve_right fun ⟨hcalls, _⟩ => ?_
    obtain ⟨⟨ticket, a⟩, hin⟩ := List.exists_mem_of_ne_nil _ hcalls
    obtain ⟨t, rfl⟩ := goesOn_of_called hin
    cases he
  exact ⟨hstep.watch, hstep.outbox⟩

/-- A conversation leads to a rehearsal by steps of the watch alone. -/
def IsLedTo (outbox : Outbox Json) (r : Rehearsal σ) (c : Conversation β) : Prop :=
  ∃ l, (∀ x ∈ l, x.2.IsWork) ∧ Carries outbox r (c.after l)

namespace IsLedTo

theorem of_carries (h : Carries outbox r c) : IsLedTo outbox r c :=
  ⟨[], fun _ hx => absurd hx List.not_mem_nil, h⟩

theorem step (now : Duration) {x : Happening} (hx : x.IsWork)
    (h : IsLedTo outbox r (c.step now x)) : IsLedTo outbox r c := by
  obtain ⟨l, hl, hr⟩ := h
  refine ⟨(now, x) :: l, fun y hy => ?_, hr⟩
  rcases List.mem_cons.mp hy with rfl | hy
  · exact hx
  · exact hl y hy

theorem trans {s : Rehearsal σ} (h : IsLedTo outbox r c)
    (k : ∀ c : Conversation β, Carries outbox r c → IsLedTo outbox s c) : IsLedTo outbox s c := by
  obtain ⟨l, hl, hr⟩ := h
  obtain ⟨m, hm, hs⟩ := k _ hr
  exact ⟨l ++ m, fun x hx => (List.mem_append.mp hx).elim (hl x) (hm x),
    (Conversation.after_append c l m).symm ▸ hs⟩

end IsLedTo

/-- A task that runs makes steps of the watch. -/
theorem Carries.runTask (h : Carries outbox r c) (now : Duration) (t : Task) :
    IsLedTo outbox (r.runTask now t).1 c := by
  have hstep : ∀ (x : Happening) (e : Event) (call : Option (Nat × ServiceCall × Duration)),
      x.IsWork → c.step now x = c.stepWatch now e →
      IsLedTo outbox (Rehearsal.stepWatch now (·.step now e) { r with call }).1 c := by
    intro x e call hx hstep
    have hcall : Carries outbox { r with call } c := ⟨h.watch, h.outbox⟩
    rcases hcall.stepWatch now e with hone | ⟨-, ticket, reply, htwo⟩
    · refine .step now hx (.of_carries ?_)
      rw [hstep]
      exact hone
    · refine .step now hx (.step now (.answered ticket reply) (.of_carries ?_))
      rw [hstep]
      exact htwo
  rcases r.causes_runTask now t with heq | ⟨e, call, hcauses, heq⟩
  · rw [heq]
    exact .of_carries h
  · rw [heq]
    cases hcauses with
    | runs => exact hstep (.ran t) _ r.call (.ran t) rfl
    | answers _ => exact hstep (.answered _ _) _ none (.answered _ _) rfl
    | canceled ticket _ => exact hstep (.answered ticket _) _ none (.answered ticket _) rfl

theorem Carries.runFor (limit fuel : Nat) (a : Agenda Task) (h : Carries outbox r c) :
    IsLedTo outbox (Agenda.runFor Rehearsal.runTask limit fuel (a, r)).2 c := by
  induction fuel generalizing a r c with
  | zero => exact .of_carries h
  | succ n ih =>
    unfold Agenda.runFor
    cases a.next? limit with
    | none => exact .of_carries h
    | some p => exact (h.runTask p.2.time p.1).trans fun c hc => ih _ hc

/-- All that happens by and by are steps of the watch. -/
theorem Carries.runUntil (h : Carries outbox r c) (limit : Nat) :
    IsLedTo outbox (r.runUntil limit) c :=
  (Carries.runFor limit (r.agenda.fuel limit) r.agenda h).trans fun _ hc =>
    .of_carries ⟨hc.watch, hc.outbox⟩

end Rehearsal

namespace Serving

open Conversation (Hears)
open Rehearsal

variable {β σ : Type} {s : Serving β σ} {c : Conversation β}

/-- A session that is served is where a conversation has led. -/
structure Follows (s : Serving β σ) (c : Conversation β) : Prop where
  session : c.session = s.session
  watch : c.watch = s.rehearsal.watch
  ending : c.ending = s.ending
  outbox : c.outbox = s.outbox.map (·.2)
  /-- All that was published is sent. -/
  flushed : s.rehearsal.log.published = []

namespace Follows

theorem carries (h : s.Follows c) : Carries (s.outbox.map (·.2)) s.rehearsal c := by
  refine ⟨h.watch, h.outbox.trans ?_⟩
  unfold messages
  rw [h.flushed]
  rfl

/-- What was published is sent. -/
theorem flush (hsession : c.session = s.session) (hending : c.ending = s.ending)
    (h : Carries (s.outbox.map (·.2)) s.rehearsal c) : s.flush.Follows c := by
  refine ⟨hsession, h.watch, hending, h.outbox.trans ?_, rfl⟩
  show _ = (s.outbox.sendAll _).map _
  rw [Outbox.map_sendAll]
  unfold messages
  rw [List.map_map, List.map_map]
  rfl

theorem send (h : s.Follows c) (t : Nat) (m : Json) : (s.send [(t, m)]).Follows (c.say [m]) := by
  refine ⟨h.session, h.watch, h.ending, ?_, h.flushed⟩
  show c.outbox.sendAll [m] = (s.outbox.sendAll [(t, m)]).map _
  rw [Outbox.map_sendAll, ← h.outbox]
  rfl

theorem tell (h : s.Follows c) {e : Watch.Event} (he : e.isOfEditor = true) :
    (s.perform (.tell e)).Follows (c.stepWatch s.rehearsal.time e) :=
  flush h.session h.ending (h.carries.happen he)

theorem perform (h : s.Follows c) {d : Deed} (hd : d.IsSilent ∨ ∃ id, d.Replies id) :
    (s.perform d).Follows (c.perform s.rehearsal.time d) := by
  cases d with
  | send m => exact h.send _ m
  | tell e =>
    rcases hd with hd | ⟨id, hd⟩
    · cases hd with
      | tell _ he => exact h.tell he
    · cases hd
  | sendStatus id =>
    have hstatus : ({ s with rehearsal := { s.rehearsal with
        watch := (s.rehearsal.watch.status s.rehearsal.time).2 } } : Serving β σ).Follows
          { c with watch := (s.rehearsal.watch.status s.rehearsal.time).2 } :=
      ⟨h.session, rfl, h.ending, h.outbox, h.flushed⟩
    unfold Conversation.perform
    rw [h.watch]
    exact hstatus.send _ _

end Follows

/-! ## Values -/

/-- The time stands still while deeds are performed. -/
theorem time_perform (s : Serving β σ) (d : Deed) :
    (s.perform d).rehearsal.time = s.rehearsal.time := by
  have hobey : ∀ (orders : List (Agenda.Order Watch.Task)) (a : Agenda Watch.Task),
      (a.obeyAll orders).now = a.now := by
    intro orders
    induction orders with
    | nil => exact fun _ => rfl
    | cons o r ih =>
      intro a
      refine (ih (a.obey o)).trans ?_
      cases o with
      | alarm time t => rfl
      | wake t =>
        unfold Agenda.obey Agenda.wake
        dsimp only
        split <;> rfl
  cases d with
  | send m => rfl
  | sendStatus id => rfl
  | tell e => exact congrArg Duration.ofMillis (hobey _ _)

/-- What is done about a value leaves the input alone. -/
theorem input_receive (s : Serving β σ) (v : Json) : (s.receive v).input = s.input := by
  have hdeeds : ∀ (deeds : List Deed) (s : Serving β σ),
      (deeds.foldl Serving.perform s).input = s.input := by
    intro deeds
    induction deeds with
    | nil => exact fun _ => rfl
    | cons d r ih =>
      intro s
      refine (ih (s.perform d)).trans ?_
      cases d <;> rfl
  unfold receive
  split
  · rfl
  · exact hdeeds _ _

namespace Follows

variable {values : List Json}

theorem performAll (h : s.Follows c) {deeds : List Deed}
    (hdeeds : ∀ d ∈ deeds, d.IsSilent ∨ ∃ id, d.Replies id) :
    (deeds.foldl Serving.perform s).Follows
      (deeds.foldl (Conversation.perform s.rehearsal.time) c) := by
  induction deeds generalizing s c with
  | nil => exact h
  | cons d r ih =>
    have hr := ih (h.perform (hdeeds d List.mem_cons_self)) fun x hx =>
      hdeeds x (List.mem_cons_of_mem _ hx)
    rw [time_perform] at hr
    exact hr

theorem finish (h : s.Follows c) (x : Ending) :
    (s.finish x).Follows (c.finish s.rehearsal.time x) := by
  have htold : (s.perform (.tell .shutDown)).Follows _ := h.tell (e := .shutDown) rfl
  refine ⟨htold.session, htold.watch, rfl, ?_, htold.flushed⟩
  show Outbox.stop _ = (s.perform (.tell .shutDown)).outbox.stop.map _
  rw [htold.outbox, Outbox.stop, Outbox.stop, Outbox.map_order]
  rfl

/-- A value that was read is received. -/
theorem receive (h : s.Follows c) (hending : c.ending = none) (v : Json) :
    (s.receive v).Follows (c.step s.rehearsal.time (.received v)) := by
  have hreceived : s.Follows { c with received := c.received ++ [v] } :=
    ⟨h.session, h.watch, h.ending, h.outbox, h.flushed⟩
  rw [Conversation.step_received hending]
  unfold Serving.receive
  cases hexit : Session.isExit v with
  | true =>
    rw [if_pos rfl, Conversation.hear_of_isExit hexit, ← h.session]
    exact hreceived.finish _
  | false =>
    have hhandled : Serving.Follows
        { s with
          session := (s.session.handle v).1
          rehearsal := { s.rehearsal with
            serve := s.serve (s.session.handle v).1.inForce.service } }
        { c with received := c.received ++ [v], session := (s.session.handle v).1 } :=
      ⟨rfl, h.watch, h.ending, h.outbox, h.flushed⟩
    rw [if_neg (by decide), Conversation.hear_of_not_isExit hexit]
    dsimp only
    rw [h.session]
    exact hhandled.performAll (s.session.handle_settle v).each

/-- What is read of the input is received, one value after the other; `more` is what is yet to
come. -/
theorem readFor (h : s.Follows c) {closed : Bool} {more : List UInt8}
    (hmore : closed = true → more = []) (hhears : Hears values (s.input ++ more) c) {fuel : Nat}
    (hfuel : s.input.length < fuel) :
    ∃ l, (Serving.readFor closed fuel s).Follows (c.after l) ∧
      Hears values ((Serving.readFor closed fuel s).input ++ more) (c.after l) ∧
      (closed = true → (c.after l).ending.isSome = true) := by
  induction fuel generalizing s c with
  | zero => exact absurd hfuel (Nat.not_lt_zero _)
  | succ n ih =>
    unfold Serving.readFor
    split
    · rename_i hover
      exact ⟨[], h, hhears, fun _ => h.ending.symm ▸ hover⟩
    · rename_i hover
      have hgoing : c.ending = none := h.ending.trans (Option.not_isSome_iff_eq_none.mp hover)
      have hfinish : ∀ (x : Happening) (e : Ending),
          c.step s.rehearsal.time x = c.finish s.rehearsal.time e →
          (Frame.readAll (s.input ++ more)).1 = [] →
          ∃ l, (s.finish e).Follows (c.after l) ∧
            Hears values ((s.finish e).input ++ more) (c.after l) ∧
            (closed = true → (c.after l).ending.isSome = true) := by
        intro x e hstep hnothing
        refine ⟨[(s.rehearsal.time, x)], ?_⟩
        show (s.finish e).Follows (c.step _ x) ∧ Hears values _ (c.step _ x) ∧
          (_ → (c.step _ x).ending.isSome = true)
        rw [hstep]
        exact ⟨h.finish e, hhears.finish hgoing hnothing _ e _, fun _ => rfl⟩
      have hread : Frame.read closed s.input ≠ .wait → _ := fun hwait =>
        Frame.read_followed hwait more hmore
      split
      · rename_i v rest hfound
        rw [hfound] at hread
        have hrest : ({ s with input := rest } : Serving β σ).Follows c :=
          ⟨h.session, h.watch, h.ending, h.outbox, h.flushed⟩
        have hshort : rest.length < n :=
          Nat.lt_of_lt_of_le (Frame.length_lt_of_read hfound) (Nat.le_of_lt_succ hfuel)
        have hinput : (({ s with input := rest } : Serving β σ).receive v).input = rest :=
          input_receive _ v
        obtain ⟨l, hl⟩ := ih (hrest.receive hgoing v)
          (hinput.symm ▸ hhears.received hgoing (hread nofun) s.rehearsal.time)
          (hinput.symm ▸ hshort)
        exact ⟨(s.rehearsal.time, .received v) :: l, hl⟩
      · rename_i hwait
        refine ⟨[], h, hhears, fun hclosed => ?_⟩
        subst hclosed
        exact absurd hwait Frame.read_closed_ne_wait
      · rename_i hstop
        rw [hstop] at hread
        rw [← h.session]
        refine hfinish .hungUp _ (if_neg (by rw [hgoing]; decide)) ?_
        rw [Frame.readAll_of_stop (hread nofun)]
      · rename_i e hfailed
        rw [hfailed] at hread
        refine hfinish (.garbled _) _ (if_neg (by rw [hgoing]; decide)) ?_
        rw [Frame.readAll_of_failed (hread nofun)]

/-- Tasks run and what is published is sent; then the writer takes all orders.  Nothing is received
meanwhile. -/
theorem runUntil (h : s.Follows c) (limit : Nat) :
    ∃ l, (s.runUntil limit).Follows (c.after l) ∧ (c.after l).received = c.received ∧
      (c.after l).ending = c.ending := by
  obtain ⟨l, hl, hcarries⟩ := h.carries.runUntil limit
  obtain ⟨hsession, hending, hreceived⟩ := Conversation.after_work hl c
  have hflushed : ({ s with rehearsal := s.rehearsal.runUntil limit }.flush).Follows (c.after l) :=
    flush (hsession.trans h.session) (hending.trans h.ending) hcarries
  let times : List Duration :=
    ({ s with rehearsal := s.rehearsal.runUntil limit }.flush).outbox.orders.map fun _ => 0
  refine ⟨l ++ times.map fun t => (t, .wrote), ?_⟩
  rw [Conversation.after_append, Conversation.after_wrote]
  refine ⟨⟨hflushed.session, hflushed.watch, hflushed.ending, ?_, hflushed.flushed⟩, hreceived,
    hending⟩
  show times.foldl _ (c.after l).outbox = Outbox.map _ (Outbox.drain _)
  rw [hflushed.outbox, List.foldl_map]
  exact (Outbox.map_foldl_step _ _ _).symm

theorem feed (h : s.Follows c) {bytes more : List UInt8} {closed : Bool}
    (hmore : closed = true → more = []) (hhears : Hears values (s.input ++ bytes ++ more) c) :
    ∃ l, (s.feed bytes closed).Follows (c.after l) ∧
      Hears values ((s.feed bytes closed).input ++ more) (c.after l) ∧
      (closed = true → (c.after l).ending.isSome = true) := by
  have hinput : ({ s with input := s.input ++ bytes } : Serving β σ).Follows c :=
    ⟨h.session, h.watch, h.ending, h.outbox, h.flushed⟩
  obtain ⟨l, hl, hhears, hended⟩ := hinput.readFor hmore hhears (Nat.lt_succ_self _)
  obtain ⟨m, hm, hreceived, hending⟩ := hl.runUntil s.now
  refine ⟨l ++ m, ?_⟩
  rw [Conversation.after_append]
  exact ⟨hm, hhears.of_eq hreceived hending, fun hclosed => hending.symm ▸ hended hclosed⟩

theorem mute (h : s.Follows c) : s.mute.Follows (c.step 0 .muted) :=
  ⟨h.session, h.watch, h.ending, congrArg Outbox.mute h.outbox, h.flushed⟩

end Follows

/-! ## Whole sessions -/

/-- What can be done to a session that is served. -/
inductive Doing
  /-- Bytes come in, or the input ends. -/
  | feed (bytes : List UInt8) (closed : Bool)
  /-- The time comes, in milliseconds. -/
  | wait (limit : Nat)
  /-- The editor stops reading. -/
  | mute

def act (s : Serving β σ) : Doing → Serving β σ
  | .feed bytes closed => s.feed bytes closed
  | .wait limit => s.runUntil limit
  | .mute => s.mute

/-- The input ends. -/
def Doing.closes : Doing → Bool
  | .feed _ closed => closed
  | _ => false

/-- The bytes that come in until the input ends. -/
def fed : List Doing → List UInt8
  | [] => []
  | .feed bytes closed :: r => bytes ++ if closed then [] else fed r
  | .wait _ :: r | .mute :: r => fed r

/-- Whatever is done, a session that is served goes where the conversation goes. -/
theorem Follows.actAll {values : List Json} (doings : List Doing) (h : s.Follows c)
    (hhears : Hears values (s.input ++ fed doings) c) :
    ∃ l ahead, (doings.foldl act s).Follows (c.after l) ∧ Hears values ahead (c.after l) ∧
      ((∃ d ∈ doings, d.closes = true) → (c.after l).ending.isSome = true) := by
  induction doings generalizing s c with
  | nil =>
    refine ⟨[], _, h, hhears, ?_⟩
    rintro ⟨d, hd, -⟩
    cases hd
  | cons d r ih =>
    have hone : ∃ l, (s.act d).Follows (c.after l) ∧
        Hears values ((s.act d).input ++ fed r) (c.after l) ∧
        (d.closes = true → (c.after l).ending.isSome = true) := by
      cases d with
      | wait limit =>
        rw [fed] at hhears
        obtain ⟨l, hl, hreceived, hending⟩ := h.runUntil limit
        exact ⟨l, hl, hhears.of_eq hreceived hending, nofun⟩
      | mute =>
        rw [fed] at hhears
        have hmuted : Hears values (s.input ++ fed r) (c.step 0 .muted) := hhears.of_eq rfl rfl
        exact ⟨[(0, .muted)], h.mute, hmuted, nofun⟩
      | feed bytes closed =>
        rw [fed, ← List.append_assoc] at hhears
        cases closed with
        | false => exact h.feed nofun hhears
        | true =>
          obtain ⟨l, hl, hheard, hended⟩ := h.feed (fun _ => rfl) hhears
          exact ⟨l, hl, hheard.elsewhere (hended rfl) _, hended⟩
    obtain ⟨l, hl, hheard, hended⟩ := hone
    obtain ⟨m, ahead, hm, hheard, hclosed⟩ := ih hl hheard
    refine ⟨l ++ m, ahead, ?_⟩
    rw [Conversation.after_append]
    refine ⟨hm, hheard, ?_⟩
    rintro ⟨x, hx, hcloses⟩
    rcases List.mem_cons.mp hx with rfl | hx
    · rw [Conversation.ending_after (hended hcloses)]
      exact hended hcloses
    · exact hclosed ⟨x, hx, hcloses⟩

/-- Every session that is served is where some conversation has led, in which the values of the
stream were received, up to the one that ends it. -/
theorem exists_conversation (session : Session β) (service : σ)
    (serve : β → σ → Analysis → ServiceCall × σ) (doings : List Doing) :
    ∃ l, (doings.foldl act (ofSession session service serve)).Follows
        ((Conversation.ofSession session 0).after l) ∧
      Conversation.heard l <+: Conversation.untilExit (Frame.readAll (fed doings)).1 ∧
      ((∃ d ∈ doings, d.closes = true) →
        Conversation.heard l = Conversation.untilExit (Frame.readAll (fed doings)).1) := by
  have hstart : (ofSession session service serve).Follows (Conversation.ofSession session 0) :=
    ⟨rfl, rfl, rfl, rfl, rfl⟩
  have hhears : Hears (Frame.readAll (fed doings)).1 (fed doings)
      (Conversation.ofSession session 0) := .going rfl (fun _ hv => nomatch hv) rfl
  obtain ⟨l, ahead, hl, hheard, hended⟩ := hstart.actAll doings hhears
  have hreceived :
      ((Conversation.ofSession session 0).after l).received = Conversation.heard l :=
    Conversation.received_after _ l
  refine ⟨l, hl, ?_⟩
  rw [← hreceived]
  exact ⟨hheard.received_prefix, fun hclosed => hheard.received_eq (hended hclosed)⟩

end Serving

end SmellWatch
