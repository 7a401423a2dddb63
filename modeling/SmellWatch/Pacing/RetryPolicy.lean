import SmellWatch.Config.Settings
import SmellWatch.RemoteError
/-! How often a failed call is made again, and after what delay.

Failures of two families are worth another try, and each is counted by itself. A
service that asks for patience is left alone for twice as long each time, up to half
a minute, or longer if it says so. A service that fails or takes too long is left
alone for one second more each time. All other failures are final. -/

namespace SmellWatch

structure RetryPolicy where
  /-- Calls in all, while the service asks for patience. -/
  maxRateLimitAttempts : Nat
  /-- Further calls after failures of the service. -/
  maxServerRetries : Nat
deriving DecidableEq, Repr

/-- The failures so far, by family. The counts have no bound; words of 32 bits hold them up
to the `2 ^ 32`-th failure of one family. -/
structure Attempts where
  rateLimited : Nat := 0
  server : Nat := 0
deriving DecidableEq, Repr

namespace RetryPolicy

/-- One call is always allowed. -/
def ofSettings (s : RetrySettings) : RetryPolicy :=
  ⟨max 1 s.maxRateLimitAttempts, s.maxServerRetries⟩

def default : RetryPolicy := ofSettings {}

def longestBackoff : Nat := 30

/-- The delay in seconds after the `n`-th request for patience: `2 ^ n`, but half a
minute at most. -/
def backoffSeconds (n : Nat) : Nat := min (Nat.pow 2 (min n 16)) longestBackoff

/-- The delay before the next call after one more failure, and the new counts; no delay
means that it was the last call. Counting in words of 32 bits gives the same as long as
the new count is below `2 ^ 32`. -/
def nextDelay (p : RetryPolicy) (e : RemoteError) (a : Attempts) : Option Duration × Attempts :=
  match e with
  | .rateLimited hint =>
    let a := { a with rateLimited := a.rateLimited + 1 }
    if p.maxRateLimitAttempts ≤ a.rateLimited then (none, a)
    else
      let backoff := Duration.ofSeconds (backoffSeconds a.rateLimited)
      (some (max (hint.getD 0) backoff), a)
  | .server _ _ | .timeout =>
    let a := { a with server := a.server + 1 }
    if p.maxServerRetries < a.server then (none, a) else (some (Duration.ofSeconds a.server), a)
  | .auth _ | .canceled | .malformed _ | .other _ => (none, a)

end RetryPolicy

end SmellWatch
