import SmellWatch.Proofs.Pacing.Pursuit
/-! Runs of a pursuit: what has happened to it since it was set up.

A pursuit is woken, its calls end, it is canceled, and others draw on its bucket, in any
order and at any time.  The `State` remembers the calls that were made, and the result once
there is one.  `turn_step` tells what a deed does to it; all that is proved of runs is proved
from that. -/

namespace SmellWatch

/-- A call that is answered so, after these failures, is the last one. -/
def RetryPolicy.IsFinal {β : Type} (policy : RetryPolicy) (answer : Except RemoteError β)
    (a : Attempts) : Prop := ∀ e, answer = .error e → (policy.nextDelay e a).1 = none

namespace Pursuit

variable {α β : Type}

/-- A call that a pursuit made: when, and when it ended with which answer. -/
structure Call (β : Type) where
  start : Duration
  ending : Option (Duration × Except RemoteError β) := none

/-- The newest call has ended. -/
def ended (now : Duration) (answer : Except RemoteError β) : List (Call β) → List (Call β)
  | [] => []
  | c :: older => { c with ending := some (now, answer) } :: older

/-- A pursuit with the bucket that it draws on, and what it has done so far. -/
structure State (α β : Type) where
  pursuit : Pursuit
  bucket : TokenBucket α
  canceled : Bool := false
  /-- The newest first. -/
  calls : List (Call β) := []
  result? : Option (Except RemoteError β) := none

/-- What happens to a pursuit. -/
inductive Deed (α β : Type)
  | woken
  | answered (answer : Except RemoteError β)
  | canceled
  /-- Others have drawn on the bucket, or filled it. -/
  | shared (bucket : TokenBucket α)

namespace State

/-- Does what the pursuit does next. -/
def follow (now : Duration) (next : Next β) (s : State α β) : State α β :=
  match next with
  | .sleeps _ => s
  | .calls => { s with calls := { start := now } :: s.calls }
  | .ends result => { s with result? := some result }

/-- A pursuit that is over does nothing any more; one that calls can only be answered. -/
def step [TokenNumber α] (now : Duration) (s : State α β) : Deed α β → State α β
  | .woken =>
    if s.result?.isSome ∨ s.pursuit.phase = .calling then s
    else
      let (next, pursuit, bucket) := s.pursuit.resume now s.canceled s.bucket
      { s with pursuit, bucket }.follow now next
  | .answered answer =>
    if s.result?.isSome ∨ s.pursuit.phase ≠ .calling then s
    else
      let (next, pursuit) := s.pursuit.answered now s.canceled answer
      { s with pursuit, calls := ended now answer s.calls }.follow now next
  | .canceled => { s with canceled := true }
  | .shared bucket => { s with bucket }

/-- The pursuit takes note of a deed. -/
def Minds (now : Duration) (s : State α β) : Deed α β → Prop
  | .woken => s.result? = none ∧
      ∃ time, s.pursuit.wakesAt? = some time ∧ (s.canceled = true ∨ time ≤ now)
  | .answered _ => s.result? = none ∧ s.pursuit.phase = .calling
  | .canceled => s.canceled = false
  | .shared _ => True

end State

inductive Run (α β : Type)
  | start (policy : RetryPolicy) (bucket : TokenBucket α)
  | next (past : Run α β) (now : Duration) (deed : Deed α β)

namespace Run

def policy : Run α β → RetryPolicy
  | start policy _ => policy
  | next r _ _ => r.policy

/-- The pursuit at the end of a run. -/
def state [TokenNumber α] : Run α β → State α β
  | start policy bucket => { pursuit := ofPolicy policy, bucket }
  | next r now deed => r.state.step now deed

/-- A run goes on. -/
def after (r : Run α β) (l : List (Duration × Deed α β)) : Run α β :=
  l.foldl (fun r x => r.next x.1 x.2) r

end Run

/-! ## Step by step -/

variable [TokenNumber α] {now : Duration} {s : State α β}

/-- What a deed does to a pursuit. -/
inductive Turn (now : Duration) (s : State α β) : Deed α β → State α β → Prop
  | still (deed : Deed α β) (h : ¬ s.Minds now deed) : Turn now s deed s
  | shared (bucket : TokenBucket α) : Turn now s (.shared bucket) { s with bucket }
  | canceled (h : s.canceled = false) : Turn now s .canceled { s with canceled := true }
  /-- It is canceled while it seeks a token or rests. -/
  | leaves (time : Duration) (hopen : s.result? = none) (hwakes : s.pursuit.wakesAt? = some time)
      (hcanceled : s.canceled = true) :
      Turn now s .woken { s with result? := some (.error .canceled) }
  /-- It takes a token and calls. -/
  | calls (time : Duration) (hopen : s.result? = none) (hwakes : s.pursuit.wakesAt? = some time)
      (hfree : s.canceled = false) (hdue : time ≤ now)
      (htaken : (s.bucket.tryTake now).1 = true) :
      Turn now s .woken
        { s with
          pursuit := { s.pursuit with phase := .calling }
          bucket := (s.bucket.tryTake now).2
          calls := { start := now } :: s.calls }
  /-- There is no token yet. -/
  | seeks (time next : Duration) (hopen : s.result? = none)
      (hwakes : s.pursuit.wakesAt? = some time) (hfree : s.canceled = false) (hdue : time ≤ now)
      (hnone : (s.bucket.tryTake now).1 = false)
      (hnext : next = now + Duration.ofMillis ((s.bucket.refill now).slice now).1) :
      Turn now s .woken
        { s with
          pursuit := { s.pursuit with phase := .seeking next }
          bucket := (s.bucket.refill now).refill now }
  /-- Its last call has ended. -/
  | finishes (answer : Except RemoteError β) (p : Pursuit) (hopen : s.result? = none)
      (hcalling : s.pursuit.phase = .calling) (hpolicy : p.policy = s.pursuit.policy)
      (hfinal : s.pursuit.policy.IsFinal answer s.pursuit.attempts) :
      Turn now s (.answered answer)
        { s with pursuit := p, calls := ended now answer s.calls, result? := some answer }
  /-- Its call has failed, and it would rest, but it was canceled. -/
  | stops (e : RemoteError) (d : Duration) (p : Pursuit) (hopen : s.result? = none)
      (hcalling : s.pursuit.phase = .calling) (hpolicy : p.policy = s.pursuit.policy)
      (hcanceled : s.canceled = true)
      (hdelay : (s.pursuit.policy.nextDelay e s.pursuit.attempts).1 = some d) :
      Turn now s (.answered (.error e))
        { s with
          pursuit := p
          calls := ended now (.error e) s.calls
          result? := some (.error .canceled) }
  /-- Its call has failed, and it rests. -/
  | rests (e : RemoteError) (d : Duration) (hopen : s.result? = none)
      (hcalling : s.pursuit.phase = .calling) (hfree : s.canceled = false)
      (hdelay : (s.pursuit.policy.nextDelay e s.pursuit.attempts).1 = some d) :
      Turn now s (.answered (.error e))
        { s with
          pursuit :=
            { s.pursuit with
              attempts := (s.pursuit.policy.nextDelay e s.pursuit.attempts).2
              phase := .resting (now + d) }
          calls := ended now (.error e) s.calls }

theorem turn_woken (now : Duration) (s : State α β) : Turn now s .woken (s.step now .woken) := by
  unfold State.step
  dsimp only
  split
  · rename_i hidle
    refine .still .woken ?_
    rintro ⟨hopen, time, hwakes, -⟩
    rcases hidle with hover | hcalling
    · rw [hopen] at hover
      cases hover
    · rw [wakesAt?_eq_none.mpr hcalling] at hwakes
      cases hwakes
  · rename_i hactive
    obtain ⟨hopen, hphase⟩ := not_or.mp hactive
    rw [Option.not_isSome_iff_eq_none] at hopen
    obtain ⟨time, hwakes⟩ := Option.ne_none_iff_exists'.mp (mt wakesAt?_eq_none.mp hphase)
    have hnext : Resumes now s.canceled s.bucket s.pursuit time
        (s.pursuit.resume now s.canceled s.bucket : Next β × _) := resumes hwakes
    generalize s.pursuit.resume now s.canceled s.bucket = x at hnext
    cases hnext with
    | canceled h => exact .leaves time hopen hwakes h
    | early h hearly =>
      refine .still .woken ?_
      rintro ⟨-, time', hwakes', hcanceled | hdue⟩
      · cases h.symm.trans hcanceled
      · cases hwakes.symm.trans hwakes'
        exact Nat.not_le_of_lt hearly hdue
    | calls h hdue htaken => exact .calls time hopen hwakes h hdue htaken
    | seeks h hdue hnone next hnext => exact .seeks time next hopen hwakes h hdue hnone hnext

theorem turn_answered (now : Duration) (s : State α β) (answer : Except RemoteError β) :
    Turn now s (.answered answer) (s.step now (.answered answer)) := by
  unfold State.step
  dsimp only
  split
  · rename_i hidle
    refine .still _ ?_
    rintro ⟨hopen, hcalling⟩
    rcases hidle with hover | hphase
    · rw [hopen] at hover
      cases hover
    · exact hphase hcalling
  · rename_i hactive
    obtain ⟨hopen, hphase⟩ := not_or.mp hactive
    rw [Option.not_isSome_iff_eq_none] at hopen
    have hcalling := Decidable.not_not.mp hphase
    have hnext := hears now s.canceled s.pursuit answer
    generalize s.pursuit.answered now s.canceled answer = x at hnext
    cases hnext with
    | succeeds x => exact .finishes (.ok x) _ hopen hcalling rfl fun _ h => nomatch h
    | givesUp e hfinal =>
      refine .finishes (.error e) _ hopen hcalling rfl fun x hx => ?_
      cases hx
      exact hfinal
    | canceled e d h hdelay => exact .stops e d _ hopen hcalling rfl h hdelay
    | rests e d h hdelay => exact .rests e d hopen hcalling h hdelay

theorem turn_step (now : Duration) (s : State α β) (deed : Deed α β) :
    Turn now s deed (s.step now deed) := by
  cases deed with
  | woken => exact turn_woken now s
  | answered answer => exact turn_answered now s answer
  | canceled =>
    cases hc : s.canceled with
    | false => exact .canceled hc
    | true =>
      have hsame : s.step now .canceled = s := by
        unfold State.step
        rw [← hc]
      rw [hsame]
      refine .still .canceled fun h => ?_
      cases hc.symm.trans h
  | shared bucket => exact .shared bucket

theorem Run.turn (r : Run α β) (now : Duration) (deed : Deed α β) :
    Turn now r.state deed (r.next now deed).state := turn_step now r.state deed

end Pursuit

end SmellWatch
