import SmellWatch.Duration
/-! Time as a list of what is due.

An agenda knows the time in whole milliseconds, the tasks that are ready, and the
alarms that wake a task later. Ready tasks go first, in the order in which they became
ready. When none is left, time moves on to the next alarm. An alarm rings at its time
rounded up to a millisecond; alarms of one millisecond ring in the order they were
set. -/

namespace SmellWatch

structure Agenda.Alarm (τ : Type) where
  ring : Nat
  task : τ
deriving Repr

structure Agenda (τ : Type) where
  now : Nat := 0
  ready : List τ := []
  /-- In the order in which they ring. -/
  alarms : List (Agenda.Alarm τ) := []
deriving Repr

/-- What a task asks of the agenda. -/
inductive Agenda.Order (τ : Type)
  /-- Another task is ready. -/
  | wake (task : τ)
  /-- A task is to be woken at a time. -/
  | alarm (time : Duration) (task : τ)
deriving Repr

namespace Agenda

variable {τ σ : Type} [DecidableEq τ]

def time (a : Agenda τ) : Duration := Duration.ofMillis a.now

/-- A task that is ready already does not get ready twice. -/
def wake (a : Agenda τ) (t : τ) : Agenda τ :=
  if t ∈ a.ready then a else { a with ready := a.ready ++ [t] }

/-- Behind all alarms that ring no later. -/
def insertAlarm (x : Alarm τ) : List (Alarm τ) → List (Alarm τ)
  | [] => [x]
  | y :: r => if y.ring ≤ x.ring then y :: insertAlarm x r else x :: y :: r

def setAlarm (a : Agenda τ) (time : Duration) (t : τ) : Agenda τ :=
  { a with alarms := insertAlarm ⟨time.ceilMillis, t⟩ a.alarms }

def obey (a : Agenda τ) : Order τ → Agenda τ
  | .wake t => a.wake t
  | .alarm time t => a.setAlarm time t

def obeyAll (a : Agenda τ) (orders : List (Order τ)) : Agenda τ := orders.foldl obey a

/-- Moves to the time of the next alarm, if it rings by then, and wakes what is due. -/
def advance? (limit : Nat) (a : Agenda τ) : Option (Agenda τ) :=
  match a.alarms with
  | [] => none
  | x :: _ =>
    if x.ring ≤ limit then
      let now := max a.now x.ring
      let due := a.alarms.takeWhile (·.ring ≤ now)
      some ((due.map (·.task)).foldl wake
        { a with now, alarms := a.alarms.dropWhile (·.ring ≤ now) })
    else none

/-- The next task to run up to a time, and the agenda without it. -/
def next? (limit : Nat) (a : Agenda τ) : Option (τ × Agenda τ) :=
  match a.ready with
  | t :: r => some (t, { a with ready := r })
  | [] =>
    match a.advance? limit with
    | none => none
    | some b =>
      match b.ready with
      | [] => none
      | t :: r => some (t, { b with ready := r })

/-- How many tasks can run up to a time, if no task makes more than a few others ready
in one millisecond. -/
def fuel (limit : Nat) (a : Agenda τ) : Nat :=
  (limit - a.now + 2) * 16 * (a.ready.length + a.alarms.length + 8)

/-- Runs what is due up to a time, and all that follows from it by then. -/
def runFor (step : Duration → τ → σ → σ × List (Order τ)) (limit : Nat) :
    Nat → Agenda τ × σ → Agenda τ × σ
  | 0, (a, s) => ({ a with now := max a.now limit }, s)
  | n + 1, (a, s) =>
    match a.next? limit with
    | none => ({ a with now := max a.now limit }, s)
    | some (t, a) =>
      let (s, orders) := step a.time t s
      runFor step limit n (a.obeyAll orders, s)

def run (step : Duration → τ → σ → σ × List (Order τ)) (limit : Nat) (a : Agenda τ) (s : σ) :
    Agenda τ × σ :=
  runFor step limit (a.fuel limit) (a, s)

end Agenda

end SmellWatch
