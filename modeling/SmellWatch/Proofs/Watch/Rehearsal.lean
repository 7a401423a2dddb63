import SmellWatch.Proofs.Watch.Calls
import SmellWatch.Proofs.Watch.Causes
import SmellWatch.Proofs.Watch.Speech
import SmellWatch.Rehearsal.Watching
/-! A rehearsal is a run.

Whatever its service does, a rehearsal makes the steps of a watch, one after the other, and
has published what was told in them (`Follows`).  What happens in the editor is a deed of the
editor in the run (`Reaches.happen`); all that follows from it by and by is none
(`Reaches.runUntil`). -/

namespace SmellWatch

/-- The orders among the effects of a step. -/
def Watch.Effect.order? : Watch.Effect → Option (Agenda.Order Watch.Task)
  | .ordered o => some o
  | _ => none

namespace Rehearsal

open Watch

variable {σ : Type} {r : Rehearsal σ} {run : Watch.Run} {now : Duration} {e : Event}

/-- A rehearsal is where a run has led. -/
structure Follows (r : Rehearsal σ) (run : Watch.Run) : Prop where
  watch : r.watch = run.watch
  published : r.log.published.map (·.2) = run.tidings.reverse

/-- To follow the effects of a step publishes what they tell; the watch stays. -/
theorem absorb_spec (now : Duration) (fx : List Effect) (r : Rehearsal σ) :
    (absorb now fx r).1.watch = r.watch ∧
      (absorb now fx r).1.log.published.map (·.2) =
        r.log.published.map (·.2) ++ fx.filterMap Effect.told? := by
  induction fx generalizing r with
  | nil => exact ⟨rfl, (List.append_nil _).symm⟩
  | cons x rest ih =>
    cases x with
    | published id findings =>
      obtain ⟨hwatch, hpublished⟩ := ih { r with log := { r.log with
        published := r.log.published ++ [(now / Duration.nanosPerMilli, id, findings)] } }
      refine ⟨hwatch, hpublished.trans ?_⟩
      rw [List.map_append, List.append_assoc]
      rfl
    | begun a remote => exact ih r
    | ordered o => exact ih r
    | called ticket a =>
      unfold absorb
      dsimp only
      split
      · exact ih _
      · exact ih _

/-- Effects without a call are told and ordered, and have no answer at once. -/
theorem absorb_of_noCall {fx : List Effect} (h : calls fx = []) (now : Duration) (r : Rehearsal σ) :
    ∃ log, absorb now fx r = ({ r with log }, fx.filterMap Effect.order?, none) := by
  induction fx generalizing r with
  | nil => exact ⟨r.log, rfl⟩
  | cons x rest ih =>
    cases x with
    | published id findings => exact ih h _
    | begun a remote => exact ih h _
    | ordered o =>
      obtain ⟨log, heq⟩ := ih h r
      refine ⟨log, ?_⟩
      unfold absorb
      rw [heq]
      rfl
    | called ticket a => cases h

theorem tidings_reverse_next (run : Watch.Run) (now : Duration) (e : Event) :
    (run.next now e).tidings.reverse =
      run.tidings.reverse ++ (run.next now e).effects.filterMap Effect.told? := by
  rw [tidings_next, List.reverse_append, List.reverse_reverse]
  rfl

theorem Follows.absorb (h : r.Follows run) (now : Duration) (e : Event) :
    (absorb now (run.watch.step now e).2 { r with watch := (run.watch.step now e).1 }).1.Follows
      (run.next now e) := by
  obtain ⟨hwatch, hpublished⟩ :=
    absorb_spec now (run.watch.step now e).2 { r with watch := (run.watch.step now e).1 }
  refine ⟨hwatch, hpublished.trans ?_⟩
  rw [tidings_reverse_next]
  exact congrArg (· ++ _) h.published

/-- A step of the watch in a rehearsal is one step of the run, or two if a call is answered at
once. -/
theorem Follows.stepWatch (h : r.Follows run) (now : Duration) (e : Event) :
    ∃ next, (stepWatch now (·.step now e) r).1.Follows next ∧
      (next = run.next now e ∨
        ∃ x ∈ (Rehearsal.absorb now (r.watch.step now e).2
            { r with watch := (r.watch.step now e).1 }).2.2,
          next = (run.next now e).next now (.answered x.1 x.2)) := by
  have hnext := h.absorb now e
  unfold Rehearsal.stepWatch
  rw [h.watch]
  dsimp only
  rcases habsorb : Rehearsal.absorb now (run.watch.step now e).2
    { r with watch := (run.watch.step now e).1 } with ⟨s, orders, reply⟩
  rw [habsorb] at hnext
  cases reply with
  | none => exact ⟨run.next now e, hnext, .inl rfl⟩
  | some p =>
    obtain ⟨ticket, answer⟩ := p
    refine ⟨(run.next now e).next now (.answered ticket answer), ?_, .inr ⟨_, rfl, rfl⟩⟩
    dsimp only
    rw [show s.watch.answered now ticket answer =
      (run.next now e).watch.step now (.answered ticket answer) by rw [hnext.watch]; rfl]
    exact hnext.absorb now (.answered ticket answer)

/-- What a task comes to, if it comes to anything: it runs, or the call in progress is answered. -/
inductive Causes (r : Rehearsal σ) (t : Task) :
    Event → Option (Nat × ServiceCall × Duration) → Prop
  | runs : Causes r t (.ran t) r.call
  | answers {ticket : Nat} {c : ServiceCall} {ends : Duration}
      (hcall : r.call = some (ticket, c, ends)) : Causes r t (.answered ticket c.reply) none
  | canceled (ticket : Nat) (hcanceled : r.watch.queue.isCanceled = true) :
      Causes r t (.answered ticket (.returned (.error .canceled))) none

theorem causes_runTask (r : Rehearsal σ) (now : Duration) (t : Task) :
    (r.runTask now t).1 = r ∨ ∃ e call, r.Causes t e call ∧
      (r.runTask now t).1 = (Rehearsal.stepWatch now (·.step now e) { r with call }).1 := by
  unfold Rehearsal.runTask
  split
  · rename_i ticket caller c ends hcall
    split
    · exact .inl rfl
    · rename_i hticket
      obtain rfl : ticket = caller := Decidable.not_not.mp hticket
      split
      · exact .inr ⟨_, _, .canceled ticket (by simp_all), rfl⟩
      · split
        · exact .inr ⟨_, _, .answers hcall, rfl⟩
        · exact .inl rfl
  · exact .inr ⟨_, _, .runs, rfl⟩

/-- A rehearsal follows a run that was set up like this, and in which the editor has done
these things. -/
def Reaches (r : Rehearsal σ) (outset : Watch.Run) (deeds : List Event) : Prop :=
  ∃ run, r.Follows run ∧ run.asOf 0 = outset ∧ run.deeds = deeds

variable {outset : Watch.Run} {deeds : List Event}

/-- Only the watch and what was published count. -/
theorem Reaches.of_eq {s : Rehearsal σ} (h : r.Reaches outset deeds) (hwatch : s.watch = r.watch)
    (hlog : s.log = r.log) : s.Reaches outset deeds := by
  obtain ⟨run, hfollows, hrest⟩ := h
  exact ⟨run, ⟨hwatch.trans hfollows.watch, hlog ▸ hfollows.published⟩, hrest⟩

/-- A step of the watch in a rehearsal leads on in the run. -/
theorem reaches_stepWatch (h : r.Reaches outset deeds) (now : Duration) (e : Event) :
    (stepWatch now (·.step now e) r).1.Reaches outset
      (deeds ++ if e.isOfEditor then [e] else []) := by
  obtain ⟨run, hfollows, houtset, rfl⟩ := h
  have houtset : (run.next now e).asOf 0 = outset :=
    (Run.asOf_next now e (Nat.zero_le _)).trans houtset
  obtain ⟨next, hnext, rfl | ⟨x, -, rfl⟩⟩ := hfollows.stepWatch now e
  · exact ⟨_, hnext, houtset, rfl⟩
  · exact ⟨_, hnext, (Run.asOf_next _ _ (Nat.zero_le _)).trans houtset, List.append_nil _⟩

/-- What the editor does in a rehearsal it does in the run. -/
theorem Reaches.happen (h : r.Reaches outset deeds) {e : Event} (he : e.isOfEditor = true) :
    (r.happen e).Reaches outset (deeds ++ [e]) := by
  have hstep := reaches_stepWatch h r.time e
  rw [if_pos he] at hstep
  exact hstep.of_eq rfl rfl

/-- No task that runs is a deed of the editor. -/
theorem Reaches.runTask (h : r.Reaches outset deeds) (now : Duration) (t : Task) :
    (r.runTask now t).1.Reaches outset deeds := by
  rcases r.causes_runTask now t with heq | ⟨e, call, hcauses, heq⟩
  · exact heq.symm ▸ h
  · have hstep := reaches_stepWatch (r := { r with call }) (h.of_eq rfl rfl) now e
    have hnone : e.isOfEditor = false := by cases hcauses <;> rfl
    rw [hnone] at hstep
    rw [heq]
    exact (List.append_nil deeds) ▸ hstep

theorem Reaches.runFor (limit fuel : Nat) (a : Agenda Task) (h : r.Reaches outset deeds) :
    (Agenda.runFor Rehearsal.runTask limit fuel (a, r)).2.Reaches outset deeds := by
  induction fuel generalizing a r with
  | zero => exact h
  | succ n ih =>
    unfold Agenda.runFor
    cases a.next? limit with
    | none => exact h
    | some p => exact ih _ (h.runTask p.2.time p.1)

theorem Reaches.runUntil (h : r.Reaches outset deeds) (limit : Nat) :
    (r.runUntil limit).Reaches outset deeds :=
  (Reaches.runFor limit (r.agenda.fuel limit) r.agenda h).of_eq rfl rfl

end Rehearsal

end SmellWatch
