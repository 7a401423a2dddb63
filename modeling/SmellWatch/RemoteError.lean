import SmellWatch.Decimal.Reading
import SmellWatch.Duration
import SmellWatch.Http.Head
/-! Why a remote analysis failed.

`RemoteError.ofReply` classifies a reply that is no success by its status alone; a
reply that asks for patience may say for how long. -/

namespace SmellWatch

open Decimal

inductive RemoteError
  /-- The key is missing or was refused. -/
  | auth (detail : String)
  /-- Too many requests; the service may have said how long to wait. -/
  | rateLimited (retryAfter : Option Duration)
  /-- The service failed. -/
  | server (status : Nat) (body : String)
  /-- The call took too long. -/
  | timeout
  /-- The caller gave up. -/
  | canceled
  /-- A reply came, but no findings can be read from it. -/
  | malformed (detail : String)
  /-- Anything else. -/
  | other (detail : String)
deriving DecidableEq, Repr

namespace RemoteError

/-- A short name of the cause. -/
def kind : RemoteError → String
  | auth _ => "auth"
  | rateLimited _ => "rate_limited"
  | server _ _ => "server"
  | timeout => "timeout"
  | canceled => "canceled"
  | malformed _ => "malformed"
  | other _ => "other"

def message : RemoteError → String
  | auth detail => "authentication failed: " ++ detail
  | rateLimited _ => "rate limited by remote service"
  | server status body => s!"server error {status}: {body}"
  | timeout => "request timed out"
  | canceled => "request canceled"
  | malformed detail => "malformed response: " ++ detail
  | other detail => "request failed: " ++ detail

end RemoteError

/-! ## How long to wait -/

/-- A service asked for a wait longer than any duration. -/
inductive WaitError
  | tooLong
deriving DecidableEq, Repr

namespace RetryAfter

def longest : Duration := Duration.ofSeconds 60

/-- Only waits strictly between nothing and a minute are heeded. -/
def heeded (d : Duration) : Bool := 0 < d && d < longest

/-- A thousandth of the number; what is negative or no number counts as zero. -/
def thousandth (x : Double) : Double :=
  if x.isNaN || x.isNegative then .ofNat 0
  else if x.isInfinite then x
  else
    let (n, d) := x.quotient
    .ofQuotient false n (d * 1000)

/-- A wait in milliseconds, which may have a fraction. -/
def ofMillisText? (s : String) : Except WaitError (Option Duration) :=
  match Decimal.double? s with
  | none => .ok none
  | some x =>
    match Duration.ofSecondsDouble? (thousandth x) with
    | none => .error .tooLong
    | some d => .ok (some d)

/-- A wait in whole seconds. -/
def ofSecondsText? (s : String) : Option Duration :=
  (Decimal.naturalBelow? (Nat.pow 2 64) (Text.trim s)).map Duration.ofSeconds

/-- The wait that the headers ask for; milliseconds go before seconds. -/
def ofHeaders (headers : List Http.Header) : Except WaitError (Option Duration) := do
  let millis ← match Http.readableHeader? "retry-after-ms" headers with
    | none => pure none
    | some s => ofMillisText? s
  match millis.filter heeded with
  | some d => return some d
  | none =>
    return ((Http.readableHeader? "retry-after" headers).bind ofSecondsText?).filter heeded

end RetryAfter

namespace RemoteError

/-- The error that a reply without success stands for. -/
def ofReply (status : Nat) (headers : List Http.Header) (body : String) :
    Except WaitError RemoteError :=
  if status = 401 ∨ status = 403 then .ok (.auth (Http.statusText status ++ ": " ++ body))
  else if status = 429 then (RetryAfter.ofHeaders headers).map .rateLimited
  else if status = 408 then .ok .timeout
  else if 500 ≤ status ∧ status ≤ 599 then .ok (.server status body)
  else .ok (.other ("HTTP " ++ Http.statusText status ++ ": " ++ body))

end RemoteError

end SmellWatch
