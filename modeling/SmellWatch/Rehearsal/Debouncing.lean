import SmellWatch.Agenda
import SmellWatch.Debouncer
/-! Debouncers that run in a time of their own. Each has a name and keeps texts. -/

namespace SmellWatch

structure DebounceRehearsal where
  delay : Duration
  debouncers : List (String × Debouncer.Workings String) := []
  /-- How many timers were set for debouncers that were dropped. -/
  number : Nat := 0
  /-- The timers by the names of their debouncers and their numbers, and when they wake. -/
  agenda : Agenda (String × Nat × Duration) := {}
  /-- What was acted on, and when. -/
  fired : List (Nat × String × String) := []

namespace DebounceRehearsal

def debouncer? (r : DebounceRehearsal) (name : String) : Option (Debouncer.Workings String) :=
  (r.debouncers.find? (·.1 = name)).map (·.2)

/-- The debouncer of a name; a new one if there is none. -/
def debouncer (r : DebounceRehearsal) (name : String) : Debouncer.Workings String :=
  (r.debouncer? name).getD { debouncer := { delay := r.delay }, number := r.number }

def put (r : DebounceRehearsal) (name : String) (s : Debouncer.Workings String) :
    DebounceRehearsal :=
  if (r.debouncer? name).isSome then
    { r with debouncers := r.debouncers.map fun p => if p.1 = name then (name, s) else p }
  else { r with debouncers := r.debouncers ++ [(name, s)] }

def act (now : Duration) (name : String) (value : Option String) (r : DebounceRehearsal) :
    DebounceRehearsal :=
  match value with
  | none => r
  | some v => { r with fired := r.fired ++ [(now / Duration.nanosPerMilli, name, v)] }

def call (name value : String) (r : DebounceRehearsal) : DebounceRehearsal :=
  let now := r.agenda.time
  let s := r.debouncer name
  { r.put name (s.call now value) with
    agenda := r.agenda.wake (name, s.number, now + s.delay) }

def flush (name : String) (r : DebounceRehearsal) : Bool × DebounceRehearsal :=
  let (value, s) := (r.debouncer name).flush
  (value.isSome, (r.put name s).act r.agenda.time name value)

def cancel (name : String) (r : DebounceRehearsal) : Bool × DebounceRehearsal :=
  let (was, s) := (r.debouncer name).cancel
  (was, r.put name s)

/-- A debouncer that was dropped is gone; the timers of a new one have other numbers. -/
def drop (name : String) (r : DebounceRehearsal) : DebounceRehearsal :=
  { r with
    debouncers := r.debouncers.filter (·.1 ≠ name)
    number := max r.number (r.debouncer name).number }

/-- A timer is set, or wakes. -/
def runTask (now : Duration) (t : String × Nat × Duration) (r : DebounceRehearsal) :
    DebounceRehearsal × List (Agenda.Order (String × Nat × Duration)) :=
  let (name, number, due) := t
  if now < due then (r, [.alarm due t])
  else
    match r.debouncer? name with
    | none => (r, [])
    | some s =>
      let (value, s) := s.wake now number
      ((r.put name s).act now name value, [])

def runUntil (limit : Nat) (r : DebounceRehearsal) : DebounceRehearsal :=
  let (agenda, s) := r.agenda.run runTask limit r
  { s with agenda }

/-- The names of those with a pending call. -/
def pending (r : DebounceRehearsal) : List String :=
  (r.debouncers.filter (·.2.isPending)).map (·.1)

end DebounceRehearsal

end SmellWatch
