import SmellWatch.Proofs.Editor.Outbox
import SmellWatch.Proofs.Watch.Freshness
import SmellWatch.Rehearsal.Serving
/-! Conversations with an editor.

In a conversation, values come from the editor, tasks of the watch run, the remote service
answers, and the writer takes its orders, in any order and at any time (`Happening`).  A value is
handled at once, deed by deed.  When the conversation is over, nothing of what comes from the
editor counts any more, while the watch and the writer may go on.

Beside the state of the server, a conversation tells which values were received and which messages
were given to the writer. -/

namespace SmellWatch

/-- The message that findings for a document are. -/
def Watch.Effect.message? (e : Watch.Effect) : Option Json :=
  e.told?.map fun (id, findings) => Serving.diagnostics id findings

/-- What can happen in a conversation. -/
inductive Happening
  /-- A value comes from the editor. -/
  | received (value : Json)
  /-- The editor sends nothing any more. -/
  | hungUp
  /-- What the editor sends cannot be read. -/
  | garbled (error : FrameError)
  /-- A task of the watch runs. -/
  | ran (task : Watch.Task)
  | answered (ticket : Nat) (reply : Watch.Reply)
  /-- The writer takes an order. -/
  | wrote
  /-- The editor stops reading. -/
  | muted

structure Conversation (β : Type) where
  session : Session β
  watch : Watch
  outbox : Outbox Json := {}
  ending : Option Serving.Ending := none
  /-- The values that came until the conversation was over, the oldest first. -/
  received : List Json := []
  /-- The messages that were given to the writer, the oldest first. -/
  sent : List Json := []

namespace Conversation

variable {β : Type}

/-! ## What happens -/

def ofSession (session : Session β) (now : Duration) : Conversation β :=
  { session, watch := session.watch now }

/-- A conversation of which nothing has happened yet. -/
def start (environment : Environment) (fileConfig : Config)
    (connect : Config → Except RemoteError β) (inForce : InForce β) (now : Duration) :
    Conversation β :=
  ofSession { environment, fileConfig, connect, inForce } now

def say (messages : List Json) (c : Conversation β) : Conversation β :=
  { c with outbox := c.outbox.sendAll messages, sent := c.sent ++ messages }

/-- The watch makes a step; what it publishes is sent. -/
def stepWatch (now : Duration) (e : Watch.Event) (c : Conversation β) : Conversation β :=
  { c with watch := (c.watch.step now e).1 }.say
    ((c.watch.step now e).2.filterMap Watch.Effect.message?)

def perform (now : Duration) (c : Conversation β) : Deed → Conversation β
  | .send message => c.say [message]
  | .sendStatus id =>
    { c with watch := (c.watch.status now).2 }.say
      [Reply.result id (c.watch.status now).1.toEditor]
  | .tell e => c.stepWatch now e

/-- Nothing of the watch goes on, and the writer is told to stop. -/
def finish (now : Duration) (ending : Serving.Ending) (c : Conversation β) : Conversation β :=
  let c := c.stepWatch now .shutDown
  { c with ending := some ending, outbox := c.outbox.stop }

/-- A value is handled. -/
def hear (now : Duration) (value : Json) (c : Conversation β) : Conversation β :=
  if Session.isExit value then c.finish now (.exited c.session.exitCode)
  else
    let (session, deeds) := c.session.handle value
    deeds.foldl (perform now) { c with session }

def step (now : Duration) (c : Conversation β) : Happening → Conversation β
  | .received value =>
    if c.ending.isSome then c
    else { c with received := c.received ++ [value] }.hear now value
  | .hungUp => if c.ending.isSome then c else c.finish now (.exited c.session.exitCode)
  | .garbled e => if c.ending.isSome then c else c.finish now (.failed e)
  | .ran t => c.stepWatch now (.ran t)
  | .answered ticket reply => c.stepWatch now (.answered ticket reply)
  | .wrote => { c with outbox := c.outbox.step }
  | .muted => { c with outbox := c.outbox.mute }

/-- The conversation goes on. -/
def after (c : Conversation β) (l : List (Duration × Happening)) : Conversation β :=
  l.foldl (fun c x => c.step x.1 x.2) c

/-- The values that come until the editor ends the conversation, hangs up or cannot be read. -/
def heard : List (Duration × Happening) → List Json
  | [] => []
  | (_, .received value) :: r => value :: if Session.isExit value then [] else heard r
  | (_, .hungUp) :: _ | (_, .garbled _) :: _ => []
  | _ :: r => heard r

/-- The conversation is over, and the writer has ended. -/
def HasReturned (c : Conversation β) : Prop := c.ending.isSome ∧ c.outbox.working = false

/-! ## What stays -/

variable {c : Conversation β} {now : Duration}

@[simp] theorem stepWatch_watch (e : Watch.Event) :
    (c.stepWatch now e).watch = (c.watch.step now e).1 := rfl

@[simp] theorem stepWatch_ending (e : Watch.Event) : (c.stepWatch now e).ending = c.ending := rfl

@[simp] theorem stepWatch_received (e : Watch.Event) :
    (c.stepWatch now e).received = c.received := rfl

@[simp] theorem finish_watch (x : Serving.Ending) :
    (c.finish now x).watch = (c.watch.step now .shutDown).1 := rfl

@[simp] theorem finish_ending (x : Serving.Ending) : (c.finish now x).ending = some x := rfl

@[simp] theorem finish_received (x : Serving.Ending) : (c.finish now x).received = c.received := rfl

/-- Deeds leave the session alone, and what was received; they do not end the conversation. -/
theorem perform_stays (c : Conversation β) (now : Duration) (d : Deed) :
    (c.perform now d).session = c.session ∧ (c.perform now d).ending = c.ending ∧
      (c.perform now d).received = c.received := by
  cases d <;> exact ⟨rfl, rfl, rfl⟩

theorem performAll_stays (c : Conversation β) (now : Duration) (deeds : List Deed) :
    (deeds.foldl (perform now) c).session = c.session ∧
      (deeds.foldl (perform now) c).ending = c.ending ∧
      (deeds.foldl (perform now) c).received = c.received := by
  induction deeds generalizing c with
  | nil => exact ⟨rfl, rfl, rfl⟩
  | cons d r ih =>
    obtain ⟨hsession, hending, hreceived⟩ := c.perform_stays now d
    obtain ⟨hsession', hending', hreceived'⟩ := ih (c.perform now d)
    exact ⟨hsession'.trans hsession, hending'.trans hending, hreceived'.trans hreceived⟩

/-! ## Conversations step by step -/

theorem hear_of_isExit {value : Json} (h : Session.isExit value = true) :
    c.hear now value = c.finish now (.exited c.session.exitCode) := if_pos h

theorem hear_of_not_isExit {value : Json} (h : Session.isExit value = false) :
    c.hear now value = (c.session.handle value).2.foldl (perform now)
      { c with session := (c.session.handle value).1 } := if_neg (by rw [h]; decide)

/-- A value is handled as long as the conversation is not over. -/
theorem step_received (h : c.ending = none) (value : Json) :
    c.step now (.received value) =
      { c with received := c.received ++ [value] }.hear now value := by
  show (if c.ending.isSome then c else _) = _
  rw [h]
  rfl

/-- Nothing of what comes from the editor counts when the conversation is over. -/
theorem step_over (h : c.ending.isSome = true) (x : Happening) :
    c.step now x = match x with
      | .ran t => c.stepWatch now (.ran t)
      | .answered ticket reply => c.stepWatch now (.answered ticket reply)
      | .wrote => { c with outbox := c.outbox.step }
      | .muted => { c with outbox := c.outbox.mute }
      | _ => c := by
  cases x <;> first | rfl | exact if_pos h

/-- A value ends the conversation if it says so. -/
theorem step_received_ending (h : c.ending = none) (value : Json) :
    (c.step now (.received value)).ending =
      if Session.isExit value then some (.exited c.session.exitCode) else none := by
  rw [step_received h]
  cases hexit : Session.isExit value with
  | true =>
    rw [hear_of_isExit hexit]
    rfl
  | false =>
    rw [hear_of_not_isExit hexit, (performAll_stays _ now _).2.1]
    exact h

theorem step_received_session (h : c.ending = none) (value : Json) :
    (c.step now (.received value)).session =
      if Session.isExit value then c.session else (c.session.handle value).1 := by
  rw [step_received h]
  cases hexit : Session.isExit value with
  | true =>
    rw [hear_of_isExit hexit]
    rfl
  | false =>
    rw [hear_of_not_isExit hexit, (performAll_stays _ now _).1]
    rfl

theorem step_received_received (h : c.ending = none) (value : Json) :
    (c.step now (.received value)).received = c.received ++ [value] := by
  rw [step_received h]
  cases hexit : Session.isExit value with
  | true => rw [hear_of_isExit hexit, finish_received]
  | false => rw [hear_of_not_isExit hexit, (performAll_stays _ now _).2.2]

theorem received_after (c : Conversation β) (l : List (Duration × Happening)) :
    (c.after l).received = c.received ++ if c.ending.isSome then [] else heard l := by
  induction l generalizing c with
  | nil =>
    unfold heard
    rw [ite_self, List.append_nil]
    rfl
  | cons x r ih =>
    obtain ⟨now, x⟩ := x
    show ((c.step now x).after r).received = _
    rw [ih]
    cases hover : c.ending.isSome with
    | true =>
      rw [step_over hover]
      cases x <;> simp [hover]
    | false =>
      have hgoing : c.ending = none := Option.not_isSome_iff_eq_none.mp (by rw [hover]; decide)
      cases x with
      | received value =>
        rw [step_received_received hgoing, step_received_ending hgoing]
        cases hexit : Session.isExit value <;> simp [heard, hexit]
      | _ => simp [step, heard, hgoing]

/-- A conversation that is over ends no other way. -/
theorem ending_after (h : c.ending.isSome = true) (l : List (Duration × Happening)) :
    (c.after l).ending = c.ending := by
  induction l generalizing c with
  | nil => rfl
  | cons x r ih =>
    have hstep : (c.step x.1 x.2).ending = c.ending := by
      rw [step_over h]
      cases x.2 <;> rfl
    exact (ih (hstep.symm ▸ h)).trans hstep

theorem after_append (c : Conversation β) (l m : List (Duration × Happening)) :
    c.after (l ++ m) = (c.after l).after m := List.foldl_append

/-- What holds at the start and is kept by every step holds always. -/
theorem after_induction {P : Conversation β → Prop} (l : List (Duration × Happening))
    (hstart : P c) (hstep : ∀ c now h, P c → P (c.step now h)) : P (c.after l) :=
  List.foldlRecOn l _ hstart fun c hc x _ => hstep c x.1 x.2 hc

end Conversation

end SmellWatch
