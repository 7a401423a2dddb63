import SmellWatch.Decimal.Binary
/-! Reading a decimal as the nearest binary number.

A decimal is a sign, digits with at most one point, and at most one exponent;
`inf`, `infinity` and `nan` in any case are read as well. Nothing may stand around
it. -/

namespace SmellWatch.Decimal

/-- A decimal as written: `digits * 10 ^ exponent`. -/
structure Written where
  negative : Bool
  digits : Nat
  exponent : Int
deriving DecidableEq, Repr

def digitValue (c : Char) : Nat := c.toNat - '0'.toNat

def digitsValue (cs : List Char) : Nat := cs.foldl (fun n c => n * 10 + digitValue c) 0

/-- A sign at the front, and what follows it. -/
def splitSign : List Char → Bool × List Char
  | '-' :: r => (true, r)
  | '+' :: r => (false, r)
  | cs => (false, cs)

/-- The exponent at the front of `cs`, which must be all that is left. -/
def exponent? : List Char → Option Int
  | [] => some 0
  | c :: r =>
    if c = 'e' ∨ c = 'E' then
      let (negative, ds) := splitSign r
      if ds.isEmpty || !ds.all Char.isDigit then none
      else some (if negative then - (digitsValue ds : Int) else (digitsValue ds : Int))
    else none

/-- A decimal with its sign taken off. -/
def written? (negative : Bool) (cs : List Char) : Option Written :=
  let whole := cs.takeWhile Char.isDigit
  let rest := cs.dropWhile Char.isDigit
  let (places, rest) :=
    match rest with
    | '.' :: r => (r.takeWhile Char.isDigit, r.dropWhile Char.isDigit)
    | _ => ([], rest)
  if whole.isEmpty && places.isEmpty then none
  else
    (exponent? rest).map fun e =>
      ⟨negative, digitsValue (whole ++ places), e - (places.length : Int)⟩

/-- What a text of a number says. -/
inductive Numeral
  | decimal (w : Written)
  | infinite (negative : Bool)
  | notANumber (negative : Bool)
deriving DecidableEq, Repr

def numeral? (cs : List Char) : Option Numeral :=
  let (negative, r) := splitSign cs
  match written? negative r with
  | some w => some (.decimal w)
  | none =>
    let word := r.map Char.toLower
    if word = ['i', 'n', 'f'] ∨ word = ['i', 'n', 'f', 'i', 'n', 'i', 't', 'y'] then
      some (.infinite negative)
    else if word = ['n', 'a', 'n'] then some (.notANumber negative)
    else none

/-- The bits nearest to a decimal. No number has an order of magnitude beyond 400,
so powers of ten beyond that are not computed. -/
def Written.round (f : Format) (w : Written) : Nat :=
  let order : Int := w.exponent + (digitCount w.digits : Int)
  if w.digits = 0 then 0
  else if 400 < order then f.infinity
  else if order < -400 then 0
  else if 0 ≤ w.exponent then f.round (w.digits * Nat.pow 10 w.exponent.toNat) 1
  else f.round w.digits (Nat.pow 10 (-w.exponent).toNat)

def Numeral.bits (f : Format) : Numeral → Nat
  | .decimal w => (if w.negative then f.signBit else 0) + w.round f
  | .infinite negative => (if negative then f.signBit else 0) + f.infinity
  | .notANumber negative =>
    (if negative then f.signBit else 0) + f.infinity + Nat.pow 2 (f.fraction - 1)

def single? (s : String) : Option Single :=
  (numeral? s.toList).map fun n => Single.ofBits (n.bits .single)

def double? (s : String) : Option Double :=
  (numeral? s.toList).map fun n => Double.ofBits (n.bits .double)

/-- A natural number below `bound`, written with at least one digit and at most one
plus sign. -/
def naturalBelow? (bound : Nat) (s : String) : Option Nat :=
  let ds := match s.toList with
    | '+' :: r => r
    | cs => cs
  if ds.isEmpty || !ds.all Char.isDigit then none
  else if digitsValue ds < bound then some (digitsValue ds) else none

end SmellWatch.Decimal
