import SmellWatch.Editor.Outbox
/-! What becomes of the messages in an outbox.

An outbox is told by what was sent before the writer was to stop, and what was sent since
(`Tracks`).  Everything that can happen to an outbox keeps this: sending, the order to stop, a
step of the writer, and an editor that stops reading.  So what was written is a beginning of what
was sent (`Tracks.written_prefix`), and all of it when the writer has ended, unless nobody reads
(`Tracks.written_eq`). -/

namespace SmellWatch

namespace Outbox

variable {α β : Type} {o : Outbox α} {sent late : List α} {stopped : Option (List α)}

/-! ## What an outbox has to do with what was sent -/

/-- The orders that are still to be taken, if these messages wait to be written, and those were
sent after the writer was told to stop. -/
def left (waiting : List α) (stopped : Option (List α)) : List (Order α) :=
  waiting.map .write ++ stopped.elim [] fun late => .stop :: late.map .write

/-- These messages were sent to an outbox before the writer was told to stop, and those after
that, if it was. -/
inductive Tracks : Outbox α → List α → Option (List α) → Prop
  /-- The writer goes on. -/
  | busy (waiting written : List α) (muted : Bool) (stopped : Option (List α)) :
      Tracks ⟨left waiting stopped, written, true, muted⟩ (written ++ waiting) stopped
  /-- The writer has come to the order to stop. -/
  | done (sent late : List α) (muted : Bool) : Tracks ⟨[], sent, false, muted⟩ sent (some late)
  /-- A message could not be written. -/
  | brokeOff (sent written : List α) (stopped : Option (List α)) (h : written <+: sent) :
      Tracks ⟨[], written, false, true⟩ sent stopped

namespace Tracks

theorem new : Tracks ({} : Outbox α) [] none := .busy [] [] false none

theorem send (h : o.Tracks sent none) (m : α) : (o.send m).Tracks (sent ++ [m]) none := by
  cases h with
  | busy waiting written muted =>
    have horders : left waiting none ++ [.write m] = left (waiting ++ [m]) none := by simp [left]
    unfold Outbox.send order
    rw [if_pos rfl, horders, List.append_assoc]
    exact .busy _ _ _ _
  | brokeOff _ written _ h => exact .brokeOff _ _ _ (h.trans (List.prefix_append _ _))

/-- What is sent after the order to stop comes too late. -/
theorem sendLate (h : o.Tracks sent (some late)) (m : α) :
    (o.send m).Tracks sent (some (late ++ [m])) := by
  cases h with
  | busy waiting written muted =>
    have horders : left waiting (some late) ++ [.write m] = left waiting (some (late ++ [m])) := by
      simp [left]
    unfold Outbox.send order
    rw [if_pos rfl, horders]
    exact .busy _ _ _ _
  | done _ _ muted => exact .done _ _ _
  | brokeOff _ written _ h => exact .brokeOff _ _ _ h

theorem stop (h : o.Tracks sent none) : o.stop.Tracks sent (some []) := by
  cases h with
  | busy waiting written muted =>
    have horders : left waiting none ++ [.stop] = left waiting (some []) := by simp [left]
    unfold Outbox.stop order
    rw [if_pos rfl, horders]
    exact .busy _ _ _ _
  | brokeOff _ written _ h => exact .brokeOff _ _ _ h

theorem mute (h : o.Tracks sent stopped) : o.mute.Tracks sent stopped := by
  cases h with
  | busy waiting written muted => exact .busy _ _ _ _
  | done _ late muted => exact .done _ _ _
  | brokeOff _ written _ h => exact .brokeOff _ _ _ h

theorem step (h : o.Tracks sent stopped) : o.step.Tracks sent stopped := by
  cases h with
  | busy waiting written muted =>
    cases waiting with
    | nil =>
      cases stopped with
      | none => exact .busy [] _ _ none
      | some late =>
        rw [List.append_nil]
        exact .done _ _ _
    | cons m r =>
      cases muted with
      | true => exact .brokeOff _ _ _ (List.prefix_append _ _)
      | false =>
        show Tracks ⟨left r stopped, written ++ [m], true, false⟩ _ _
        rw [List.append_cons written m r]
        exact .busy _ _ _ _
  | done _ late muted => exact .done _ _ _
  | brokeOff _ written _ h => exact .brokeOff _ _ _ h

theorem sendAll (h : o.Tracks sent none) (messages : List α) :
    (o.sendAll messages).Tracks (sent ++ messages) none := by
  unfold Outbox.sendAll
  induction messages generalizing o sent with
  | nil =>
    rw [List.append_nil]
    exact h
  | cons m r ih =>
    rw [List.append_cons]
    exact ih (h.send m)

theorem sendAllLate (h : o.Tracks sent (some late)) (messages : List α) :
    (o.sendAll messages).Tracks sent (some (late ++ messages)) := by
  unfold Outbox.sendAll
  induction messages generalizing o late with
  | nil =>
    rw [List.append_nil]
    exact h
  | cons m r ih =>
    rw [List.append_cons]
    exact ih (h.sendLate m)

/-! ## What was written -/

/-- Nothing is written that was not sent, and nothing is left out. -/
theorem written_prefix (h : o.Tracks sent stopped) : o.written <+: sent := by
  cases h with
  | busy waiting written muted => exact List.prefix_append _ _
  | done _ late muted => exact List.prefix_refl _
  | brokeOff _ written _ h => exact h

/-- When the writer has ended, it has written all that was sent in time, unless nobody reads. -/
theorem written_eq (h : o.Tracks sent stopped) (hended : o.working = false)
    (hread : o.muted = false) : o.written = sent := by
  cases h with
  | busy waiting written muted => cases hended
  | done _ late muted => rfl
  | brokeOff _ written _ h => cases hread

end Tracks

/-! ## The end of the writer -/

theorem step_of_nil (h : o.orders = []) : o.step = o := by
  unfold step
  rw [h]

theorem foldl_step_of_nil (h : o.orders = []) (l : List β) :
    l.foldl (fun o _ => o.step) o = o := by
  induction l with
  | nil => rfl
  | cons x r ih =>
    rw [List.foldl_cons, step_of_nil h]
    exact ih

/-- A writer that was told to stop ends when it has taken as many orders as there are. -/
theorem foldl_step_ended (waiting written : List α) (muted : Bool) (l : List β)
    (hlength : waiting.length < l.length) :
    (l.foldl (fun o _ => o.step)
      (⟨left waiting (some late), written, true, muted⟩ : Outbox α)).working = false := by
  induction waiting generalizing l written with
  | nil =>
    obtain ⟨x, r, rfl⟩ := List.exists_cons_of_length_pos hlength
    exact congrArg working (foldl_step_of_nil rfl r)
  | cons m waiting ih =>
    obtain ⟨x, r, rfl⟩ := List.exists_cons_of_length_pos (Nat.zero_lt_of_lt hlength)
    cases muted with
    | true => exact congrArg working (foldl_step_of_nil rfl r)
    | false => exact ih _ r (Nat.lt_of_succ_lt_succ hlength)

theorem Tracks.ended_of_steps (h : o.Tracks sent (some late)) (l : List β)
    (hlength : o.orders.length ≤ l.length) :
    (l.foldl (fun o _ => o.step) o).working = false := by
  cases h with
  | busy waiting written muted =>
    refine foldl_step_ended waiting written muted l (Nat.lt_of_lt_of_le ?_ hlength)
    simp [left]
  | done _ _ muted => exact congrArg working (foldl_step_of_nil rfl l)
  | brokeOff _ written _ h => exact congrArg working (foldl_step_of_nil rfl l)

/-! ## Outboxes of other messages -/

def Order.map (f : α → β) : Order α → Order β
  | .write m => .write (f m)
  | .stop => .stop

def map (f : α → β) (o : Outbox α) : Outbox β :=
  { orders := o.orders.map (Order.map f), written := o.written.map f
    working := o.working, muted := o.muted }

theorem map_order (f : α → β) (o : Outbox α) (x : Order α) :
    (o.order x).map f = (o.map f).order (x.map f) := by
  unfold order map
  cases hworking : o.working <;> simp [hworking]

theorem map_send (f : α → β) (o : Outbox α) (m : α) :
    (o.send m).map f = (o.map f).send (f m) := map_order f o _

theorem map_sendAll (f : α → β) (o : Outbox α) (messages : List α) :
    (o.sendAll messages).map f = (o.map f).sendAll (messages.map f) := by
  unfold sendAll
  induction messages generalizing o with
  | nil => rfl
  | cons m r ih =>
    rw [List.map_cons, List.foldl_cons, List.foldl_cons, ih, map_send]

theorem map_step (f : α → β) (o : Outbox α) : o.step.map f = (o.map f).step := by
  obtain ⟨orders, written, working, muted⟩ := o
  cases orders with
  | nil => rfl
  | cons x r =>
    cases x with
    | stop => rfl
    | write m => cases muted <;> simp [step, map, close, Order.map]

/-- The writers of both take their orders alike. -/
theorem map_foldl_step {γ : Type} (f : α → β) (l : List γ) (o : Outbox α) :
    (l.foldl (fun o _ => o.step) o).map f = l.foldl (fun o _ => o.step) (o.map f) := by
  induction l generalizing o with
  | nil => rfl
  | cons x r ih => rw [List.foldl_cons, List.foldl_cons, ih, map_step]

theorem sendAll_append (o : Outbox α) (l l' : List α) :
    o.sendAll (l ++ l') = (o.sendAll l).sendAll l' := List.foldl_append

end Outbox

end SmellWatch
