import SmellWatch.Duration
/-! A bucket of tokens that fills with time.

A bucket holds at most `capacity` tokens and earns as many in a minute, in
proportion to the time that has passed. Nothing ticks: what was earned since the
last look is added when the bucket is looked at, so every look gives a new bucket.

Tokens are counted in a number type of choice: `Float` where the program runs,
exact fractions where one reasons about it. -/

namespace SmellWatch

/-- Numbers that count tokens and milliseconds. -/
class TokenNumber (α : Type) extends Add α, Sub α, Mul α, Div α where
  ofNat : Nat → α
  /-- Whether the first number is at most the second. -/
  atMost : α → α → Bool
  /-- A length of time in milliseconds. -/
  millis : Duration → α
  /-- A number of milliseconds that is not negative, rounded up to whole ones. -/
  ceil : α → Nat

namespace TokenNumber

/-- A number of milliseconds as the nearest length of time. -/
def durationOfFloat (x : Float) : Duration :=
  (Duration.ofSecondsDouble? ⟨(x / 1000.0).toBits⟩).getD 0

instance : TokenNumber Float where
  ofNat := Float.ofNat
  atMost x y := x ≤ y
  millis d :=
    (Float.ofNat (d / Duration.nanosPerSecond) +
      Float.ofNat (d % Duration.nanosPerSecond) / 1000000000.0) * 1000.0
  ceil x := (durationOfFloat x).ceilMillis

end TokenNumber

structure TokenBucket (α : Type) where
  capacity : Nat
  tokens : α
  refilledAt : Duration

namespace TokenBucket

open TokenNumber

variable {α : Type} [TokenNumber α]

def defaultRate : Nat := 10

/-- A full bucket for so many tokens in a minute, one at least. -/
def full (rate : Nat) (now : Duration) : TokenBucket α :=
  { capacity := max 1 rate, tokens := ofNat (max 1 rate), refilledAt := now }

/-- What is earned in a length of time. -/
def earned (b : TokenBucket α) (elapsed : Duration) : α :=
  millis elapsed * ofNat b.capacity / ofNat 60000

/-- The bucket as it is now. -/
def refill (now : Duration) (b : TokenBucket α) : TokenBucket α :=
  let total := b.tokens + b.earned (now - b.refilledAt)
  { b with
    tokens := if atMost total (ofNat b.capacity) then total else ofNat b.capacity
    refilledAt := now }

/-- Takes one token, if there is one. -/
def tryTake (now : Duration) (b : TokenBucket α) : Bool × TokenBucket α :=
  let b := b.refill now
  if atMost (ofNat 1) b.tokens then (true, { b with tokens := b.tokens - ofNat 1 }) else (false, b)

/-- The milliseconds until there is a token. -/
def wait (now : Duration) (b : TokenBucket α) : α × TokenBucket α :=
  let b := b.refill now
  if atMost (ofNat 1) b.tokens then (ofNat 0, b)
  else ((ofNat 1 - b.tokens) * ofNat 60000 / ofNat b.capacity, b)

def available (now : Duration) (b : TokenBucket α) : α × TokenBucket α :=
  let b := b.refill now
  (b.tokens, b)

def reset (now : Duration) (b : TokenBucket α) : TokenBucket α :=
  { b with tokens := ofNat b.capacity, refilledAt := now }

/-- The longest sleep of one who waits for a token, in milliseconds. -/
def longestSlice : Nat := 1000

/-- How many milliseconds to sleep before the next try: one at least, and a second at
most. -/
def slice (now : Duration) (b : TokenBucket α) : Nat × TokenBucket α :=
  let (w, b) := b.wait now
  (min (max 1 (ceil w)) longestSlice, b)

/-- Several tries at once: how many of them succeed. -/
def tryMany (now : Duration) : Nat → TokenBucket α → Nat × TokenBucket α
  | 0, b => (0, b)
  | n + 1, b =>
    let (taken, b) := b.tryTake now
    let (rest, b) := tryMany now n b
    ((if taken then 1 else 0) + rest, b)

end TokenBucket

end SmellWatch
