import SmellWatch.Proofs.Editor.Conversation
import SmellWatch.Proofs.Editor.Frame
/-! What a conversation hears of a stream.

The values of a stream are received one after the other, up to the one that ends the session, if
there is one.  As long as the conversation goes on, the values that were received and those that are
still ahead are the values of the stream (`Hears`). -/

namespace SmellWatch

namespace Conversation

variable {β : Type} {c c' : Conversation β} {values : List Json} {ahead rest : List UInt8}
  {v : Json}

/-- The values up to the one that ends the session. -/
def untilExit : List Json → List Json
  | [] => []
  | v :: r => v :: if Session.isExit v then [] else untilExit r

theorem untilExit_append {l : List Json} (h : ∀ v ∈ l, Session.isExit v = false)
    (r : List Json) : untilExit (l ++ r) = l ++ untilExit r := by
  induction l with
  | nil => rfl
  | cons v l ih =>
    rw [List.cons_append, untilExit, h v List.mem_cons_self,
      ih fun w hw => h w (List.mem_cons_of_mem _ hw)]
    rfl

/-- How a conversation stands to a stream that holds these values, if these bytes of it are still
ahead. -/
inductive Hears (values : List Json) (ahead : List UInt8) (c : Conversation β) : Prop
  | going (hending : c.ending = none) (hexits : ∀ v ∈ c.received, Session.isExit v = false)
      (h : values = c.received ++ (Frame.readAll ahead).1)
  | ended (hending : c.ending.isSome = true) (h : c.received = untilExit values)

namespace Hears

theorem of_eq (h : Hears values ahead c) (hreceived : c'.received = c.received)
    (hending : c'.ending = c.ending) : Hears values ahead c' := by
  cases h with
  | going hgoing hexits h =>
    exact .going (hending.trans hgoing) (hreceived ▸ hexits) (hreceived ▸ h)
  | ended hended h => exact .ended (hending ▸ hended) (hreceived.trans h)

/-! ## While the conversation goes on -/

theorem of_going (h : Hears values ahead c) (hgoing : c.ending = none) :
    (∀ v ∈ c.received, Session.isExit v = false) ∧
      values = c.received ++ (Frame.readAll ahead).1 := by
  cases h with
  | going _ hexits h => exact ⟨hexits, h⟩
  | ended hended =>
    rw [hgoing] at hended
    cases hended

/-- The next value of the stream comes. -/
theorem received (h : Hears values ahead c) (hgoing : c.ending = none)
    (hread : Frame.read true ahead = .found v rest) (now : Duration) :
    Hears values rest (c.step now (.received v)) := by
  obtain ⟨hexits, hvalues⟩ := h.of_going hgoing
  rw [Frame.readAll_of_found hread] at hvalues
  have hreceived : (c.step now (.received v)).received = c.received ++ [v] :=
    step_received_received hgoing v
  have hending : (c.step now (.received v)).ending = _ := step_received_ending hgoing v
  cases hexit : Session.isExit v with
  | true =>
    rw [hexit, if_pos rfl] at hending
    refine .ended (by rw [hending]; rfl) ?_
    rw [hreceived, hvalues, untilExit_append hexits, untilExit, hexit, if_pos rfl]
  | false =>
    rw [hexit, if_neg (by decide)] at hending
    refine .going hending ?_ ?_
    · rw [hreceived, List.forall_mem_append, List.forall_mem_singleton]
      exact ⟨hexits, hexit⟩
    · rw [hreceived, hvalues, List.append_assoc, List.singleton_append]

/-- No value comes any more. -/
theorem finish (h : Hears values ahead c) (hgoing : c.ending = none)
    (hnothing : (Frame.readAll ahead).1 = []) (now : Duration) (x : Serving.Ending)
    (ahead' : List UInt8) : Hears values ahead' (c.finish now x) := by
  obtain ⟨hexits, hvalues⟩ := h.of_going hgoing
  rw [hnothing] at hvalues
  refine .ended rfl ?_
  rw [hvalues, untilExit_append hexits]
  exact (List.append_nil _).symm

/-! ## What was received -/

theorem received_prefix (h : Hears values ahead c) : c.received <+: untilExit values := by
  cases h with
  | going _ hexits h =>
    rw [h, untilExit_append hexits]
    exact List.prefix_append _ _
  | ended _ h => rw [h]

theorem received_eq (h : Hears values ahead c) (hended : c.ending.isSome = true) :
    c.received = untilExit values := by
  cases h with
  | going hgoing =>
    rw [hgoing] at hended
    cases hended
  | ended _ h => exact h

/-- When the conversation is over, it does not matter what is ahead. -/
theorem elsewhere (h : Hears values ahead c) (hended : c.ending.isSome = true)
    (ahead' : List UInt8) : Hears values ahead' c := .ended hended (h.received_eq hended)

end Hears

end Conversation

end SmellWatch
