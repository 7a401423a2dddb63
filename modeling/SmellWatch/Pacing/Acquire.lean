import SmellWatch.Pacing.Pursuit
/-! Waiting in a time of one's own: for one token, or for the end of a whole pursuit.

Time is counted in whole milliseconds here, and sleeps end at their time rounded up to
one. A cancellation may come at a given millisecond; a sleep that ends in the same
millisecond ends first. -/

namespace SmellWatch

namespace TokenBucket

variable {α : Type} [TokenNumber α]

/-- Tries to take a token, sleeping between the tries; tells whether one was taken, and
when. -/
def acquireFor : Nat → (now : Nat) → (cancelAt : Option Nat) → TokenBucket α →
    Bool × Nat × TokenBucket α
  | 0, now, _, b => (false, now, b)
  | fuel + 1, now, cancelAt, b =>
    let (taken, b) := b.tryTake (Duration.ofMillis now)
    if taken then (true, now, b)
    else
      let (ms, b) := b.slice (Duration.ofMillis now)
      match cancelAt with
      | some c => if c < now + ms then (false, c, b) else acquireFor fuel (now + ms) cancelAt b
      | none => acquireFor fuel (now + ms) none b

/-- How many tries there can be: one token takes a minute at most, and a sleep takes a
second unless it is among the last. -/
def acquireFuel : Nat := 200

/-- Waits for a token; one who was canceled before takes none. -/
def acquire (now : Nat) (cancelAt : Option Nat) (b : TokenBucket α) : Bool × Nat × TokenBucket α :=
  if cancelAt.any (· ≤ now) then (false, now, b) else acquireFor acquireFuel now cancelAt b

end TokenBucket

namespace Pursuit

variable {α β : Type} [TokenNumber α]

/-- How a pursuit went. -/
structure Course (α β : Type) where
  /-- When calls were made. -/
  calls : List Nat
  stop : Nat
  result : Except RemoteError β
  bucket : TokenBucket α

/-- Follows a pursuit from what it does next. Each call takes `latency` and ends with the
next answer; after the last one calls end with `exhausted`. -/
def followFor (cancelAt : Option Nat) (latency : Nat) (exhausted : β) :
    Nat → (now : Nat) → List (Except RemoteError β) → Next β → Pursuit → TokenBucket α → Course α β
  | 0, now, _, _, _, b => ⟨[], now, .error .canceled, b⟩
  | fuel + 1, now, answers, next, p, b =>
    match next with
    | .ends result => ⟨[], now, result, b⟩
    | .sleeps until_ =>
      let ring := until_.ceilMillis
      let canceled := cancelAt.any (· < ring)
      let wake := if canceled then max now (cancelAt.getD ring) else ring
      let (next, p, b) := p.resume (Duration.ofMillis wake) canceled b
      followFor cancelAt latency exhausted fuel wake answers next p b
    | .calls =>
      let stop := now + latency
      let answer := answers.head?.getD (.ok exhausted)
      let (next, p) := p.answered (Duration.ofMillis stop) (cancelAt.any (· < stop)) answer
      let c := followFor cancelAt latency exhausted fuel stop answers.tail next p b
      { c with calls := now :: c.calls }

/-- A whole pursuit from time zero. -/
def course (policy : RetryPolicy) (cancelAt : Option Nat) (latency : Nat) (exhausted : β)
    (answers : List (Except RemoteError β)) (b : TokenBucket α) : Course α β :=
  let (next, p, b) := (ofPolicy policy).resume 0 (cancelAt.any (· = 0)) b
  followFor cancelAt latency exhausted ((answers.length + 2) * (TokenBucket.acquireFuel + 2)) 0
    answers next p b

end Pursuit

end SmellWatch
