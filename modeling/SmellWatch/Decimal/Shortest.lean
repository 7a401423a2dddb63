import SmellWatch.Decimal.Binary
/-! The shortest decimal of a binary number.

The numbers that round to a given one form an interval; its ends belong to it
exactly if the number's fraction is even. `shortest` looks for a decimal of one
digit in the interval, then of two, and so on; of two decimals of the same
length it takes the nearer one. -/

namespace SmellWatch.Decimal

/-- A positive decimal: `digits * 10 ^ exponent`. -/
structure Digits where
  digits : Nat
  exponent : Int
deriving DecidableEq, Repr

/-- The greatest `k` with `10 ^ k ≤ num / den`, for a positive quotient. -/
def decimalOrder (num den : Nat) : Int :=
  if den ≤ num then (digitCount (num / den) : Int) - 1
  else
    let k := digitCount (den / num)
    if den ≤ num * Nat.pow 10 (k - 1) then 1 - (k : Int) else - (k : Int)

/-- What rounds to one number, over the common denominator `den`: the ends `low`
and `high` with the number `mid` between them. -/
structure Interval where
  low : Nat
  mid : Nat
  high : Nat
  den : Nat
  closed : Bool
deriving DecidableEq, Repr

/-- The interval of the finite positive number with these bits. -/
def Interval.ofBits (f : Format) (bits : Nat) : Interval :=
  let (m, e) := f.magnitude bits
  let (up, den) : Nat × Nat := if 0 ≤ e then (Nat.pow 2 e.toNat, 1) else (1, Nat.pow 2 (-e).toNat)
  -- the gap below a power of two is half the gap above it
  let narrow := m = Nat.pow 2 f.fraction ∧ f.leastExponent < e
  { low := (4 * m - if narrow then 1 else 2) * up
    mid := 4 * m * up
    high := (4 * m + 2) * up
    den := 4 * den
    closed := m % 2 = 0 }

/-- Whether `n * 10 ^ k` lies in the interval. -/
def Interval.holds (i : Interval) (n : Nat) (k : Int) : Bool :=
  let (a, b) : Nat × Nat :=
    if 0 ≤ k then (n * Nat.pow 10 k.toNat * i.den, 1) else (n * i.den, Nat.pow 10 (-k).toNat)
  if i.closed then i.low * b ≤ a && a ≤ i.high * b else i.low * b < a && a < i.high * b

/-- The decimals of `count` digits next to the middle, below and above; the nearer
one that the interval holds. -/
def Interval.nearest? (i : Interval) (order : Int) (count : Nat) : Option Digits :=
  let k : Int := order - (count : Int) + 1
  let (a, b) : Nat × Nat :=
    if 0 ≤ k then (i.mid, i.den * Nat.pow 10 k.toNat) else (i.mid * Nat.pow 10 (-k).toNat, i.den)
  let n := a / b
  let r := a % b
  let below := i.holds n k
  let above := i.holds (n + 1) k
  if below && above then
    if 2 * r < b ∨ (2 * r = b ∧ n % 2 = 0) then some ⟨n, k⟩ else some ⟨n + 1, k⟩
  else if below then some ⟨n, k⟩
  else if above then some ⟨n + 1, k⟩
  else none

/-- The first hit among `count`, `count + 1`, … digits, `fuel` lengths at most. -/
def Interval.search (i : Interval) (order : Int) : Nat → Nat → Digits
  | 0, _ => ⟨i.mid / i.den, 0⟩
  | fuel + 1, count => (i.nearest? order count).getD (i.search order fuel (count + 1))

/-- Trailing zeros of the digits go into the exponent. -/
def Digits.normal (d : Digits) : Nat → Digits
  | 0 => d
  | fuel + 1 =>
    if d.digits % 10 = 0 ∧ d.digits ≠ 0 then
      Digits.normal ⟨d.digits / 10, d.exponent + 1⟩ fuel
    else d

/-- The shortest decimal of a finite positive number; 17 digits always suffice. -/
def shortest (f : Format) (bits : Nat) : Digits :=
  let i := Interval.ofBits f bits
  (i.search (decimalOrder i.mid i.den) 17 1).normal 20

/-! ## Text of a decimal -/

/-- How a decimal is written: the orders of magnitude with a positional form, and
the mark between an exponent and what stands before it when it is positive. -/
structure Style where
  leastPositional : Int
  greatestPositional : Int
  positiveMark : String
deriving DecidableEq, Repr

/-- Positional digits with a point and at least one digit after it. -/
def positional (d : Digits) : String :=
  let ds := toString d.digits
  let n := ds.length
  if 0 ≤ d.exponent then ds ++ String.ofList (List.replicate d.exponent.toNat '0') ++ ".0"
  else
    let places := (-d.exponent).toNat
    if places < n then
      String.ofList (ds.toList.take (n - places)) ++ "." ++
        String.ofList (ds.toList.drop (n - places))
    else "0." ++ String.ofList (List.replicate (places - n) '0') ++ ds

/-- One digit, the others after a point, and the exponent. -/
def scientific (mark : String) (d : Digits) : String :=
  let ds := (toString d.digits).toList
  let order : Int := d.exponent + (ds.length : Int) - 1
  let lead := String.ofList (ds.take 1)
  let rest := ds.drop 1
  let tail := if rest.isEmpty then "" else "." ++ String.ofList rest
  let expo := if 0 ≤ order then mark ++ toString order.toNat else "-" ++ toString (-order).toNat
  lead ++ tail ++ "e" ++ expo

def Style.write (s : Style) (d : Digits) : String :=
  let order : Int := d.exponent + (digitCount d.digits : Int) - 1
  if s.leastPositional ≤ order ∧ order ≤ s.greatestPositional then positional d
  else scientific s.positiveMark d

/-- A finite number, its sign included. -/
def Style.writeBits (s : Style) (f : Format) (bits : Nat) : String :=
  let sign := if f.isNegative bits then "-" else ""
  let b := bits % f.signBit
  if b = 0 then sign ++ "0.0" else sign ++ s.write (shortest f b)

end SmellWatch.Decimal
