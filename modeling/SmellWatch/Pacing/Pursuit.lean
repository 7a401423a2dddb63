import SmellWatch.Pacing.RetryPolicy
import SmellWatch.Pacing.TokenBucket
/-! Pursuing an answer: calls are made, each paid with a token, until one succeeds or
the policy gives up.

A pursuit is a machine that is told what happens (`seek` at the start, `resume` when a
wait may be over or was canceled, `answered` when a call ends) and says what it does
next. A cancellation is noticed while it waits for a token or rests between two calls,
and goes before everything else; a call in progress notices it by itself, or not. -/

namespace SmellWatch

/-- What a pursuit is doing. -/
inductive Pursuit.Phase
  /-- It sleeps until it may try again to get a token. -/
  | seeking (until_ : Duration)
  /-- A call is in progress. -/
  | calling
  /-- It rests between two calls. -/
  | resting (until_ : Duration)
deriving DecidableEq, Repr

structure Pursuit where
  policy : RetryPolicy
  attempts : Attempts := {}
  phase : Pursuit.Phase
deriving DecidableEq, Repr

/-- What a pursuit does next. -/
inductive Pursuit.Next (β : Type)
  /-- It sleeps until then. -/
  | sleeps (until_ : Duration)
  /-- It makes a call. -/
  | calls
  /-- It is over. -/
  | ends (result : Except RemoteError β)

namespace Pursuit

variable {α β : Type} [TokenNumber α]

/-- Takes a token and calls, or sleeps until the next try. -/
def seek (now : Duration) (canceled : Bool) (b : TokenBucket α) (p : Pursuit) :
    Next β × Pursuit × TokenBucket α :=
  if canceled then (.ends (.error .canceled), p, b)
  else
    let (taken, b) := b.tryTake now
    if taken then (.calls, { p with phase := .calling }, b)
    else
      let (ms, b) := b.slice now
      let until_ := now + Duration.ofMillis ms
      (.sleeps until_, { p with phase := .seeking until_ }, b)

/-- A new pursuit, about to seek its first token. -/
def ofPolicy (policy : RetryPolicy) : Pursuit := { policy, phase := .seeking 0 }

/-- Goes on after a sleep that may be over, or a cancellation. -/
def resume (now : Duration) (canceled : Bool) (b : TokenBucket α) (p : Pursuit) :
    Next β × Pursuit × TokenBucket α :=
  match p.phase with
  | .calling => (.calls, p, b)
  | .seeking until_ | .resting until_ =>
    if canceled then (.ends (.error .canceled), p, b)
    else if until_ ≤ now then p.seek now canceled b
    else (.sleeps until_, p, b)

/-- The call in progress has ended. -/
def answered (now : Duration) (canceled : Bool) (answer : Except RemoteError β) (p : Pursuit) :
    Next β × Pursuit :=
  match answer with
  | .ok x => (.ends (.ok x), p)
  | .error e =>
    match p.policy.nextDelay e p.attempts with
    | (none, a) => (.ends (.error e), { p with attempts := a })
    | (some d, a) =>
      if canceled then (.ends (.error .canceled), { p with attempts := a })
      else (.sleeps (now + d), { p with attempts := a, phase := .resting (now + d) })

end Pursuit

end SmellWatch
