/-! Binary floating-point numbers as bit patterns.

A format keeps `fraction` bits of a number's fraction and `exponent` bits of its
exponent; the top bit is the sign. Everything here is exact arithmetic on natural
numbers: `Format.round` gives the bits of the number nearest to a quotient (a tie
goes to the even one), and `Format.magnitude` gives a number back as a natural
number times a power of two.

`Single` and `Double` are the numbers of 32 and 64 bits. They are compared as
numbers: `Single.key` orders them, with both zeros equal, and no comparison with
a value that is no number holds. -/

namespace SmellWatch.Decimal

/-- The count of decimal digits, one for zero. -/
def digitCount (n : Nat) : Nat := (Nat.toDigits 10 n).length

/-- Widths of the two fields below the sign. -/
structure Format where
  fraction : Nat
  exponent : Nat
deriving DecidableEq, Repr

namespace Format

def single : Format := ⟨23, 8⟩

def double : Format := ⟨52, 11⟩

/-- Bits of infinity, the least pattern that is no finite number. -/
def infinity (f : Format) : Nat := (Nat.pow 2 f.exponent - 1) * Nat.pow 2 f.fraction

def signBit (f : Format) : Nat := Nat.pow 2 (f.exponent + f.fraction)

/-- The least binary exponent: numbers are multiples of two to this power. -/
def leastExponent (f : Format) : Int := 2 - Nat.pow 2 (f.exponent - 1) - (f.fraction : Int)

/-- `a / b` rounded to the nearest natural number, a tie to the even one. -/
def divideEven (a b : Nat) : Nat :=
  let q := a / b
  let r := a % b
  if 2 * r > b ∨ (2 * r = b ∧ q % 2 = 1) then q + 1 else q

/-- `num / den` scaled by two to the power `-e`, as a quotient. -/
def scaled (num den : Nat) (e : Int) : Nat × Nat :=
  if 0 ≤ e then (num, den * Nat.pow 2 e.toNat) else (num * Nat.pow 2 (-e).toNat, den)

/-- The bits of the number nearest to `num / den`, which is not negative. -/
def round (f : Format) (num den : Nat) : Nat :=
  if num = 0 ∨ den = 0 then 0
  else
    let guess : Int := (Nat.log2 num : Int) - (Nat.log2 den : Int) - (f.fraction : Int)
    let (n, d) := scaled num den guess
    let exact := if n < d * Nat.pow 2 f.fraction then guess - 1 else guess
    let e := max exact f.leastExponent
    let (n, d) := scaled num den e
    let bits := (e - f.leastExponent).toNat * Nat.pow 2 f.fraction + divideEven n d
    min bits f.infinity

/-- The number with these bits (its sign apart), as `m` and `e` for `m * 2 ^ e`. -/
def magnitude (f : Format) (bits : Nat) : Nat × Int :=
  let b := bits % f.signBit
  let stored := b / Nat.pow 2 f.fraction
  if stored = 0 then (b, f.leastExponent)
  else (b % Nat.pow 2 f.fraction + Nat.pow 2 f.fraction, f.leastExponent + stored - 1)

/-- The number with these bits (its sign apart), as a quotient. -/
def quotient (f : Format) (bits : Nat) : Nat × Nat :=
  let (m, e) := f.magnitude bits
  if 0 ≤ e then (m * Nat.pow 2 e.toNat, 1) else (m, Nat.pow 2 (-e).toNat)

def isNaN (f : Format) (bits : Nat) : Bool := bits % f.signBit > f.infinity

def isInfinite (f : Format) (bits : Nat) : Bool := bits % f.signBit == f.infinity

def isNegative (f : Format) (bits : Nat) : Bool := bits ≥ f.signBit

/-- Numbers in order: the pattern below the sign, negated for negative numbers. -/
def key (f : Format) (bits : Nat) : Int :=
  if f.isNegative bits then - ((bits % f.signBit : Nat) : Int) else (bits : Int)

/-- Bits of one format as bits of another, rounded where that is needed. -/
def convert (f g : Format) (bits : Nat) : Nat :=
  let sign := if f.isNegative bits then g.signBit else 0
  if f.isNaN bits then sign + g.infinity + Nat.pow 2 (g.fraction - 1)
  else if f.isInfinite bits then sign + g.infinity
  else
    let (n, d) := f.quotient bits
    sign + g.round n d

end Format

/-! ## Numbers of 32 bits -/

structure Single where
  bits : UInt32
deriving DecidableEq, Repr

/-! ## Numbers of 64 bits -/

structure Double where
  bits : UInt64
deriving DecidableEq, Repr

namespace Single

def ofBits (n : Nat) : Single := ⟨n.toUInt32⟩

/-- The number nearest to `num / den`, negated if `negative`. -/
def ofQuotient (negative : Bool) (num den : Nat) : Single :=
  ofBits ((if negative then Format.single.signBit else 0) + Format.single.round num den)

def ofNat (n : Nat) : Single := ofQuotient false n 1

instance (n : Nat) : OfNat Single n := ⟨ofNat n⟩

def half : Single := ofQuotient false 1 2

def isNaN (x : Single) : Bool := Format.single.isNaN x.bits.toNat

def isInfinite (x : Single) : Bool := Format.single.isInfinite x.bits.toNat

def isFinite (x : Single) : Bool := !x.isNaN && !x.isInfinite

def isNegative (x : Single) : Bool := Format.single.isNegative x.bits.toNat

/-- The place of a number in the order of all numbers. -/
def key (x : Single) : Int := Format.single.key x.bits.toNat

def less (x y : Single) : Bool := !x.isNaN && !y.isNaN && decide (x.key < y.key)

def atMost (x y : Single) : Bool := !x.isNaN && !y.isNaN && decide (x.key ≤ y.key)

instance : LT Single := ⟨fun x y => x.less y = true⟩

instance : LE Single := ⟨fun x y => x.atMost y = true⟩

instance (x y : Single) : Decidable (x < y) := inferInstanceAs (Decidable (x.less y = true))

instance (x y : Single) : Decidable (x ≤ y) := inferInstanceAs (Decidable (x.atMost y = true))

def toDouble (x : Single) : Double :=
  ⟨(Format.single.convert Format.double x.bits.toNat).toUInt64⟩

/-- Into the unit interval; what is no number becomes zero. -/
def clampUnit (x : Single) : Single :=
  if x.isNaN then 0 else if x < 0 then 0 else if 1 < x then 1 else x

end Single

namespace Double

def ofBits (n : Nat) : Double := ⟨n.toUInt64⟩

def ofQuotient (negative : Bool) (num den : Nat) : Double :=
  ofBits ((if negative then Format.double.signBit else 0) + Format.double.round num den)

def ofNat (n : Nat) : Double := ofQuotient false n 1

def isNaN (x : Double) : Bool := Format.double.isNaN x.bits.toNat

def isInfinite (x : Double) : Bool := Format.double.isInfinite x.bits.toNat

def isFinite (x : Double) : Bool := !x.isNaN && !x.isInfinite

def isNegative (x : Double) : Bool := Format.double.isNegative x.bits.toNat

/-- The absolute value of a finite number as a quotient. -/
def quotient (x : Double) : Nat × Nat := Format.double.quotient x.bits.toNat

def toSingle (x : Double) : Single :=
  ⟨(Format.double.convert Format.single x.bits.toNat).toUInt32⟩

end Double

end SmellWatch.Decimal
