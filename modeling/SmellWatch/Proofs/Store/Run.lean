import SmellWatch.Proofs.DocumentStore
/-! Runs of a store: what was done to it since it was set up.

Before each operation some time may pass, so time does not go back in a run.  A run counts
its operations; the number of an operation is its `moment`. -/

namespace SmellWatch

namespace DocumentStore

/-- What can be done to a store. -/
inductive Operation
  | upsert (id : DocumentId) (content : String)
  | setResult (id : DocumentId) (fp : Fingerprint) (findings : List Finding)
  | recordResult (id : DocumentId) (fp : Fingerprint) (findings : List Finding)
  | setInFlight (id : DocumentId) (inFlight : Bool)
  | beginAnalysis (id : DocumentId)
  | finishAnalysis (id : DocumentId) (seq : Nat)
  | setConfig (config : Fingerprint)
  | remove (id : DocumentId)
deriving DecidableEq, Repr

/-- The store after an operation. -/
def perform (now : Duration) (s : DocumentStore) : Operation → DocumentStore
  | .upsert id content => (s.upsert id content).2
  | .setResult id fp findings => (s.setResult now id fp findings).2
  | .recordResult id fp findings => (s.recordResult now id fp findings).2
  | .setInFlight id inFlight => (s.setInFlight id inFlight).2
  | .beginAnalysis id => (s.beginAnalysis id).2
  | .finishAnalysis id seq => (s.finishAnalysis id seq).2
  | .setConfig config => (s.setConfig config).2
  | .remove id => (s.remove id).2

/-- A store that is set up, and one to which an operation was done after some time. -/
inductive Run
  | start (config : Fingerprint) (maxCacheAge : Duration)
  | next (past : Run) (wait : Duration) (op : Operation)

/-- An operation of a run, with the run up to it and its time. -/
structure Run.Step where
  past : Run
  time : Duration
  op : Operation

namespace Run

/-- The time at the end of a run, since its start. -/
def now : Run → Duration
  | start _ _ => 0
  | next r wait _ => r.now + wait

/-- The store at the end of a run. -/
def store : Run → DocumentStore
  | start config maxCacheAge => { config, maxCacheAge }
  | next r wait op => r.store.perform (r.now + wait) op

/-- How many operations there were. -/
def moment : Run → Nat
  | start _ _ => 0
  | next r _ _ => r.moment + 1

/-- The operations of a run, the newest first. -/
def steps : Run → List Step
  | start _ _ => []
  | next r wait op => ⟨r, r.now + wait, op⟩ :: r.steps

/-- The entry of a document at the end of a run. -/
def get? (r : Run) (id : DocumentId) : Option DocumentEntry := r.store.get? id

end Run

/-! ## What stays -/

theorem setInFlight_snd (s : DocumentStore) (id : DocumentId) (inFlight : Bool) :
    (s.setInFlight id inFlight).2 = s.modify id ({ · with inFlight }) := rfl

theorem beginAnalysis_cases (s : DocumentStore) (id : DocumentId) :
    (s.beginAnalysis id).2 = s ∨ (s.beginAnalysis id).2 = s.modify id engaged := by
  cases he : s.get? id with
  | none => exact .inl (by rw [beginAnalysis_of_none he])
  | some e =>
    by_cases hf : e.inFlight = true
    · exact .inl (by rw [beginAnalysis_of_inFlight he hf])
    · exact .inr (by rw [beginAnalysis_of_free he (by simpa using hf)])

@[simp] theorem beginAnalysis_cache (s : DocumentStore) (id : DocumentId) :
    (s.beginAnalysis id).2.cache = s.cache := by
  rcases s.beginAnalysis_cases id with h | h <;> rw [h]
  rfl

@[simp] theorem beginAnalysis_config (s : DocumentStore) (id : DocumentId) :
    (s.beginAnalysis id).2.config = s.config := by
  rcases s.beginAnalysis_cases id with h | h <;> rw [h]
  rfl

end DocumentStore

end SmellWatch
