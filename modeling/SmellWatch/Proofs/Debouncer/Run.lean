import Mathlib.Data.List.Nodup
import SmellWatch.Debouncer
/-! Runs of a debouncer: what was done to it since it was set up, and which timers woke.

A timer may wake at any time, and in any order with what is done meanwhile; what it does then
is up to `Workings.wake`.  A run counts its deeds; the number of a deed is its `moment`.  In a
run the debouncer keeps the calls themselves and not only their values, so that what it acts on
tells which call it was: it makes no difference to a debouncer what it keeps (`perform_map`).

Several debouncers live together in a `Household`; each of them has a run of its own. -/

namespace SmellWatch

namespace Debouncer

variable {α β ι : Type}

/-- What is done to a debouncer, or happens to it. -/
inductive Deed (α : Type)
  | call (value : α)
  | flush
  | cancel
  /-- It is thrown away. -/
  | drop
  /-- The timer of a number wakes. -/
  | ring (number : Nat)
  /-- Nothing but that time passes. -/
  | wait
deriving DecidableEq, Repr

namespace Deed

/-- Whether it is done to a debouncer, and does not just happen. -/
def isDone : Deed α → Bool
  | .ring _ | .wait => false
  | _ => true

def map (f : α → β) : Deed α → Deed β
  | .call value => .call (f value)
  | .flush => .flush
  | .cancel => .cancel
  | .drop => .drop
  | .ring number => .ring number
  | .wait => .wait

end Deed

namespace Workings

/-- What is acted on, and how things stand afterwards.  To a debouncer that was thrown away
nothing is done any more. -/
def perform (now : Duration) (s : Workings α) (e : Deed α) : Option α × Workings α :=
  if s.isGone && e.isDone then (none, s)
  else
    match e with
    | .call value => (none, s.call now value)
    | .flush => s.flush
    | .cancel => (none, s.cancel.2)
    | .drop => (none, s.drop)
    | .ring number => s.wake now number
    | .wait => (none, s)

/-- The debouncer, unless it was thrown away. -/
def debouncer? (s : Workings α) : Option (Debouncer α) :=
  if s.isGone then none else some s.debouncer

end Workings

/-! ## One debouncer -/

inductive Run (α : Type)
  | start (delay now : Duration)
  | next (past : Run α) (now : Duration) (deed : Deed α)

namespace Run

/-- A deed of a run. -/
structure Step (α : Type) where
  moment : Nat
  time : Duration
  deed : Deed α
deriving DecidableEq, Repr

/-- A call of a run. -/
structure Call (α : Type) where
  moment : Nat
  time : Duration
  value : α
  /-- The number of the timer of the call. -/
  timer : Nat
deriving DecidableEq, Repr

/-- What a debouncer acted on. -/
structure Act (α : Type) where
  moment : Nat
  time : Duration
  call : Call α
  /-- Whether a timer made it act; a flush does otherwise. -/
  byTimer : Bool
deriving DecidableEq, Repr

def delay : Run α → Duration
  | start delay _ => delay
  | next r _ _ => r.delay

/-- When the last deed happened. -/
def clock : Run α → Duration
  | start _ now => now
  | next _ now _ => now

/-- How many deeds there were. -/
def moment : Run α → Nat
  | start _ _ => 0
  | next r _ _ => r.moment + 1

/-- The debouncer and its timers at the end of a run. -/
def workings : Run α → Workings (Call α)
  | start delay _ => { debouncer := { delay } }
  | next r now e =>
    (r.workings.perform now (e.map (⟨r.moment, now, ·, r.workings.number⟩))).2

/-- The debouncer at the end of a run, unless it is gone. -/
def debouncer? (r : Run α) : Option (Debouncer (Call α)) := r.workings.debouncer?

/-- The deeds of a run, the newest first. -/
def steps : Run α → List (Step α)
  | start _ _ => []
  | next r now e => ⟨r.moment, now, e⟩ :: r.steps

/-- The call that a deed is, unless the debouncer is gone. -/
def call? (r : Run α) (now : Duration) : Deed α → Option (Call α)
  | .call value =>
    if r.workings.isGone then none else some ⟨r.moment, now, value, r.workings.number⟩
  | _ => none

/-- The calls of a run, the newest first. -/
def calls : Run α → List (Call α)
  | start _ _ => []
  | next r now e => (r.call? now e).toList ++ r.calls

/-- What a deed makes the debouncer do. -/
def act? (r : Run α) (now : Duration) (e : Deed α) : Option (Act α) :=
  (r.workings.perform now (e.map (⟨r.moment, now, ·, r.workings.number⟩))).1.map
    (⟨r.moment, now, ·, !e.isDone⟩)

/-- What the debouncer did in a run, the newest first. -/
def acts : Run α → List (Act α)
  | start _ _ => []
  | next r now e => (r.act? now e).toList ++ r.acts

/-- Time does not go back, and it does not go past a timer that is set: the timer rings first,
or it is aborted first. -/
def IsPunctual : Run α → Prop
  | start _ _ => True
  | next r now _ => r.IsPunctual ∧ r.clock ≤ now ∧ ∀ x ∈ r.workings.timers, now ≤ x.2

instance decidableIsPunctual : (r : Run α) → Decidable r.IsPunctual
  | start _ _ => isTrue trivial
  | next r now _ =>
    have := decidableIsPunctual r
    inferInstanceAs (Decidable (r.IsPunctual ∧ r.clock ≤ now ∧ ∀ x ∈ r.workings.timers, now ≤ x.2))

/-- Whether a deed after a call ends its wait: whatever is done to the debouncer does, and the
timer of the call when it wakes at its time or later. -/
def Call.isEndedBy (delay : Duration) (c : Call α) (s : Step α) : Bool :=
  c.moment < s.moment &&
    match s.deed with
    | .ring number => number = c.timer && c.time + delay ≤ s.time
    | .wait => false
    | _ => true

/-- A call that nothing has ended waits. -/
def Awaits (r : Run α) (c : Call α) : Prop :=
  c ∈ r.calls ∧ ∀ s ∈ r.steps, c.isEndedBy r.delay s = false

/-- The first deed that ends the wait of a call. -/
structure EndsFirstBy (r : Run α) (c : Call α) (s : Step α) : Prop where
  happened : s ∈ r.steps
  ends : c.isEndedBy r.delay s = true
  first : ∀ x ∈ r.steps, c.isEndedBy r.delay x = true → s.moment ≤ x.moment

end Run

/-! ## Several debouncers -/

/-- Debouncers with names, and what was done to each of them, in one order. -/
inductive Household (ι α : Type)
  | start (delay : ι → Duration) (now : Duration)
  | next (past : Household ι α) (now : Duration) (name : ι) (deed : Deed α)

namespace Household

variable [DecidableEq ι]

def workings : Household ι α → ι → Workings α
  | start delay _, name => { debouncer := { delay := delay name } }
  | next h now name e, other =>
    if other = name then ((h.workings name).perform now e).2 else h.workings other

/-- What was acted on, under which name and when, the newest first. -/
def acted : Household ι α → List (ι × Duration × α)
  | start _ _ => []
  | next h now name e => ((h.workings name).perform now e).1.toList.map (name, now, ·) ++ h.acted

/-- What was done to one of them. -/
def of (name : ι) : Household ι α → Run α
  | start delay now => .start (delay name) now
  | next h now other e => if other = name then (h.of name).next now e else h.of name

end Household

/-! ## What is kept makes no difference -/

def Pending.map (f : α → β) (p : Pending α) : Pending β := ⟨f p.value, p.due⟩

/-- The debouncer if other values stood for those that it keeps. -/
def map (f : α → β) (d : Debouncer α) : Debouncer β :=
  ⟨d.delay, d.pending.map (.map f), d.generation, d.timer⟩

theorem take_map (f : α → β) (generation : UInt64) (d : Debouncer α) :
    (d.map f).take generation = ((d.take generation).1.map f, (d.take generation).2.map f) := by
  unfold take
  by_cases h : d.generation = generation
  · rw [if_pos h, if_pos (show (d.map f).generation = generation from h)]
    unfold map
    cases d.pending <;> rfl
  · rw [if_neg h, if_neg (show (d.map f).generation ≠ generation from h)]
    rfl

namespace Workings

def map (f : α → β) (s : Workings α) : Workings β :=
  ⟨s.debouncer.map f, s.timers, s.number, s.isGone⟩

theorem flush_map (f : α → β) (s : Workings α) :
    (s.map f).flush = (s.flush.1.map f, s.flush.2.map f) := by
  unfold flush Debouncer.flush map Debouncer.map
  cases s.debouncer.pending <;> rfl

theorem wake_map (f : α → β) (now : Duration) (number : Nat) (s : Workings α) :
    (s.map f).wake now number = ((s.wake now number).1.map f, (s.wake now number).2.map f) := by
  unfold wake map
  dsimp only
  cases s.timers.find? (·.1.number = number) with
  | none => rfl
  | some x =>
    dsimp only
    split
    · rfl
    · rw [take_map]
      rfl

theorem perform_map (f : α → β) (now : Duration) (s : Workings α) (e : Deed α) :
    (s.map f).perform now (e.map f) =
      ((s.perform now e).1.map f, (s.perform now e).2.map f) := by
  have hdone : (e.map f).isDone = e.isDone := by cases e <;> rfl
  unfold perform
  rw [hdone, show (s.map f).isGone = s.isGone from rfl]
  split
  · rfl
  · cases e with
    | ring number => exact wake_map f now number s
    | flush => exact flush_map f s
    | _ => rfl

end Workings

end Debouncer

end SmellWatch
