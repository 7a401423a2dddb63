import SmellWatch.Decimal.Binary
/-! Lengths of time, in whole nanoseconds.

`Duration.text` is how a duration is shown to a reader: in the greatest unit that
keeps a whole part, with the places after the point that are needed. -/

namespace SmellWatch

open Decimal

abbrev Duration := Nat

namespace Duration

def nanosPerMilli : Nat := 1000000

def nanosPerSecond : Nat := 1000000000

def ofMillis (n : Nat) : Duration := n * nanosPerMilli

def ofSeconds (n : Nat) : Duration := n * nanosPerSecond

/-- Whole microseconds, a half rounded up. -/
def toMicros (d : Duration) : Nat := (d + 500) / 1000

/-- Whole milliseconds, rounded up. -/
def ceilMillis (d : Duration) : Nat := (d + (nanosPerMilli - 1)) / nanosPerMilli

/-- The nearest duration to a number of seconds that is not negative, a tie to the
even one; none for what is no number or has 2^64 seconds. -/
def ofSecondsDouble? (x : Double) : Option Duration :=
  if !x.isFinite then none
  else
    let (n, d) := x.quotient
    if Nat.pow 2 64 * d ≤ n then none else some (Format.divideEven (n * nanosPerSecond) d)

/-- `count` digits with zeros in front and none at the end. -/
def places (count n : Nat) : String :=
  let ds := (Nat.toDigits 10 n)
  let padded := List.replicate (count - ds.length) '0' ++ ds
  String.ofList (padded.reverse.dropWhile (· = '0')).reverse

/-- A whole part and the rest of it, in units of `10 ^ count` parts. -/
def inUnit (whole rest count : Nat) (unit : String) : String :=
  let tail := places count rest
  toString whole ++ (if tail.isEmpty then "" else "." ++ tail) ++ unit

def text (d : Duration) : String :=
  if nanosPerSecond ≤ d then inUnit (d / nanosPerSecond) (d % nanosPerSecond) 9 "s"
  else if nanosPerMilli ≤ d then inUnit (d / nanosPerMilli) (d % nanosPerMilli) 6 "ms"
  else if 1000 ≤ d then inUnit (d / 1000) (d % 1000) 3 "µs"
  else inUnit d 0 0 "ns"

end Duration

end SmellWatch
