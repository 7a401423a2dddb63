import SmellWatch.Duration
/-! Acting once things are quiet.

A debouncer keeps the latest call and acts on it when `delay` has passed without
another one. Each call sets a timer. What replaces or takes away the pending call aborts
its timer. A timer that wakes all the same acts only in the generation in which it was set.

`Workings` holds a debouncer together with its timers. Where there is a debouncer without
them, `Debouncer.ring` says what its timers do: of all that were set, the one that the
debouncer has is the only one that was not aborted.

* `ring_eq`: what comes of a timer while a call is pending. -/

namespace SmellWatch

/-- A call that waits for its time. -/
structure Debouncer.Pending (α : Type) where
  value : α
  /-- When its timer wakes. -/
  due : Duration
deriving DecidableEq, Repr

/-- What is known of the timer of a call. -/
structure Debouncer.Timer where
  /-- No two timers have the same number. -/
  number : Nat
  /-- The generation in which the timer was set. -/
  generation : UInt64
deriving DecidableEq, Repr

structure Debouncer (α : Type) where
  delay : Duration
  pending : Option (Debouncer.Pending α) := none
  /-- How often a pending call was replaced or taken away; it wraps around. -/
  generation : UInt64 := 0
  /-- The timer of the latest call, until it rings or is aborted. -/
  timer : Option Debouncer.Timer := none
deriving DecidableEq, Repr

namespace Debouncer

variable {α : Type}

def isPending (d : Debouncer α) : Bool := d.pending.isSome

/-- Takes the pending call away and aborts its timer. -/
def disarm (d : Debouncer α) : Debouncer α :=
  { d with pending := none, generation := d.generation + 1, timer := none }

/-- Keeps a new call, which sets a timer of that number, in place of the one that is
pending. -/
def call (now : Duration) (value : α) (number : Nat) (d : Debouncer α) : Debouncer α :=
  { d.disarm with
    pending := some ⟨value, now + d.delay⟩
    timer := some ⟨number, d.disarm.generation⟩ }

/-- Takes the pending call away to act on it now. -/
def flush (d : Debouncer α) : Option α × Debouncer α := (d.pending.map (·.value), d.disarm)

/-- Takes the pending call away; tells whether there was one. -/
def cancel (d : Debouncer α) : Bool × Debouncer α := (d.isPending, d.disarm)

/-- What is left of a debouncer that is thrown away: its timer is aborted, and the pending
call stays. -/
def drop (d : Debouncer α) : Debouncer α := { d with timer := none }

/-- A timer of a generation is at its end: in the same generation it takes the pending call
to act on it. -/
def take (generation : UInt64) (d : Debouncer α) : Option α × Debouncer α :=
  if d.generation = generation then
    (d.pending.map (·.value), { d with pending := none, timer := none })
  else (none, d)

/-- A timer rings: it comes to its end if it is time and it was not aborted, that is, if the
debouncer has it. -/
def ring (now : Duration) (t : Timer) (d : Debouncer α) : Option α × Debouncer α :=
  match d.pending with
  | some p => if d.timer = some t ∧ p.due ≤ now then d.take t.generation else (none, d)
  | none => (none, d)

/-! ## Timers

A timer is a task of its own. It sleeps until it is time, and what it does then it does at
once. It never goes on once it was aborted, also if its time had come already. A debouncer
that is thrown away leaves to its timers what it kept. -/

/-- A debouncer and the timers of its calls. -/
structure Workings (α : Type) where
  debouncer : Debouncer α
  /-- The timers that have not come to their end and were not aborted, and when they wake. -/
  timers : List (Timer × Duration) := []
  /-- How many timers were set. -/
  number : Nat := 0
  /-- Whether the debouncer was thrown away. -/
  isGone : Bool := false
deriving DecidableEq, Repr

namespace Workings

def delay (s : Workings α) : Duration := s.debouncer.delay

def isPending (s : Workings α) : Bool := s.debouncer.isPending

/-- Aborts a timer, if there is one. -/
def abort (t : Option Timer) (s : Workings α) : Workings α :=
  { s with timers := s.timers.filter fun x => t ≠ some x.1 }

def call (now : Duration) (value : α) (s : Workings α) : Workings α :=
  let d := s.debouncer.call now value s.number
  let s := s.abort s.debouncer.timer
  { s with
    debouncer := d
    timers := s.timers ++ [(⟨s.number, d.generation⟩, now + d.delay)]
    number := s.number + 1 }

def flush (s : Workings α) : Option α × Workings α :=
  let (value, d) := s.debouncer.flush
  (value, { s.abort s.debouncer.timer with debouncer := d })

def cancel (s : Workings α) : Bool × Workings α :=
  let (was, d) := s.debouncer.cancel
  (was, { s.abort s.debouncer.timer with debouncer := d })

def drop (s : Workings α) : Workings α :=
  { s.abort s.debouncer.timer with debouncer := s.debouncer.drop, isGone := true }

/-- The timer of a number wakes, if it was not aborted: it sleeps on while it is not time, and
else it comes to its end. -/
def wake (now : Duration) (number : Nat) (s : Workings α) : Option α × Workings α :=
  match s.timers.find? (·.1.number = number) with
  | none => (none, s)
  | some (t, due) =>
    if now < due then (none, s)
    else
      let (value, d) := s.debouncer.take t.generation
      (value, { s.abort (some t) with debouncer := d })

/-- The debouncer for a reader. -/
def shown (s : Workings α) : String :=
  "Debouncer \x7b delay: " ++ s.delay.text ++ s!", pending: {s.isPending}, .. " ++ "\x7d"

end Workings

/-! ## Lemmas -/

variable {d : Debouncer α} {now : Duration} {t : Timer}

/-- While a call is pending its timer is set, in the generation of the debouncer. -/
def IsArmed (d : Debouncer α) : Prop :=
  d.isPending = true → ∃ number, d.timer = some ⟨number, d.generation⟩

theorem isArmed_of_none (h : d.pending = none) : d.IsArmed := by
  unfold IsArmed isPending
  rw [h]
  exact nofun

theorem isArmed_call (now : Duration) (value : α) (number : Nat) (d : Debouncer α) :
    (d.call now value number).IsArmed := fun _ => ⟨number, rfl⟩

theorem ring_of_none (h : d.pending = none) (now : Duration) (t : Timer) :
    d.ring now t = (none, d) := by
  unfold ring
  rw [h]

theorem ring_eq {p : Pending α} (h : d.pending = some p) (now : Duration) (t : Timer) :
    d.ring now t =
      if d.timer = some t ∧ d.generation = t.generation ∧ p.due ≤ now then
        (some p.value, { d with pending := none, timer := none })
      else (none, d) := by
  unfold ring take
  simp only [h, Option.map_some]
  by_cases htimer : d.timer = some t
  · by_cases hdue : p.due ≤ now
    · simp only [htimer, hdue, and_self, if_true, and_true, true_and]
    · simp only [hdue, and_false, if_false]
  · simp only [htimer, false_and, if_false]

/-- A timer that makes the debouncer act takes the pending call and is at its end. -/
theorem taken_of_ring {a : α} {d' : Debouncer α} (h : d.ring now t = (some a, d')) :
    ∃ p, d.pending = some p ∧ p.value = a ∧ d' = { d with pending := none, timer := none } := by
  cases hp : d.pending with
  | none => cases (ring_of_none hp now t).symm.trans h
  | some p =>
    rw [ring_eq hp] at h
    split at h
    · cases h
      exact ⟨p, rfl, rfl, rfl⟩
    · cases h

/-- The timer of a pending call rings when it is time. -/
theorem IsArmed.exists_ring (h : d.IsArmed) {p : Pending α} (hp : d.pending = some p)
    (hdue : p.due ≤ now) :
    ∃ t, d.timer = some t ∧
      d.ring now t = (some p.value, { d with pending := none, timer := none }) := by
  obtain ⟨number, htimer⟩ := h (by rw [isPending, hp]; rfl)
  exact ⟨_, htimer, by rw [ring_eq hp, if_pos ⟨htimer, rfl, hdue⟩]⟩

end Debouncer

end SmellWatch
