import SmellWatch.Json.Source
import SmellWatch.Text.Utf8
import SmellWatch.Url.NameTable
/-! Hosts: names, and addresses of the two kinds.

A name whose last part is a number is an address of four parts, of which the last ones
may be written as one number, in decimal, octal or hexadecimal digits. In a name, as in the rest
of an address, a percent sign and two hexadecimal digits may stand for a byte. -/

namespace SmellWatch.Url

inductive Host
  | name (labels : String)
  | address4 (n : Nat)
  /-- The eight parts of 16 bits. -/
  | address6 (parts : List Nat)
deriving DecidableEq, Repr

/-! ## Percent signs -/

/-- The bytes that stand in a text; a percent sign without two digits stands for
itself. -/
def percentDecode : List UInt8 → List UInt8
  | 0x25 :: a :: b :: r =>
    match hexDigit? (Char.ofNat a.toNat), hexDigit? (Char.ofNat b.toNat) with
    | some x, some y => (16 * x + y).toUInt8 :: percentDecode r
    | _, _ => 0x25 :: percentDecode (a :: b :: r)
  | b :: r => b :: percentDecode r
  | [] => []

/-- An upper case hexadecimal digit. -/
def upperHexDigit (n : Nat) : Char := Char.ofNat (if n < 10 then 0x30 + n else 0x37 + n)

def percentByte (b : UInt8) : List Char :=
  ['%', upperHexDigit (b.toNat / 16), upperHexDigit (b.toNat % 16)]

/-- The text with percent signs for control characters, for what is not ASCII, and for
the characters of `reserved`. -/
def percentEncode (reserved : List Char) (cs : List Char) : List Char :=
  cs.flatMap fun c =>
    if c.toNat < 0x20 ∨ 0x7F ≤ c.toNat ∨ c ∈ reserved then
      (Text.encode (String.singleton c)).flatMap percentByte
    else [c]

/-! ## Pieces and numbers -/

/-- The pieces of a text between the characters `mark`. -/
def splitAt (mark : Char) (cs : List Char) : List (List Char) :=
  cs.foldr
    (fun c acc =>
      if c = mark then [] :: acc
      else match acc with
        | [] => [[c]]
        | p :: r => (c :: p) :: r)
    [[]]

/-- The number written in some base; none if a character is no digit of it. -/
def digitsIn? (base : Nat) (cs : List Char) : Option Nat :=
  cs.foldlM
    (fun n c =>
      match hexDigit? c with
      | some d => if d < base then some (n * base + d) else none
      | none => none)
    0

/-! ## Addresses of four parts -/

/-- One number of an address, in the base that its front tells. -/
def number? : List Char → Option Nat
  | [] => none
  | '0' :: 'x' :: r | '0' :: 'X' :: r => if r.isEmpty then some 0 else digitsIn? 16 r
  | '0' :: d :: r => digitsIn? 8 (d :: r)
  | cs => digitsIn? 10 cs

/-- The parts between points, without an empty one at the end. -/
def pointParts (cs : List Char) : List (List Char) :=
  let parts := splitAt '.' cs
  if 1 < parts.length ∧ parts.getLast? = some [] then parts.dropLast else parts

/-- Whether the last part is a number. -/
def endsInNumber (cs : List Char) : Bool :=
  match (pointParts cs).getLast? with
  | none => false
  | some last => (!last.isEmpty && last.all Char.isDigit) || (number? last).isSome

/-- The address of some numbers: each but the last one fits in a byte, and the last one
fills what is left. -/
def joinNumbers? (numbers : List Nat) : Option Nat :=
  let front := numbers.dropLast
  let last := numbers.getLastD 0
  if front.all (· < 256) ∧ last < Nat.pow 256 (4 - front.length) then
    some (front.foldl (· * 256 + ·) 0 * Nat.pow 256 (4 - front.length) + last)
  else none

def address4? (cs : List Char) : Option Nat :=
  let parts := pointParts cs
  if 4 < parts.length then none else (parts.mapM number?).bind joinNumbers?

/-! ## Addresses of eight parts -/

/-- A part of 16 bits, in at most four hexadecimal digits. -/
def part6? (cs : List Char) : Option Nat :=
  if cs.isEmpty ∨ 4 < cs.length then none else digitsIn? 16 cs

/-- A byte in decimal digits, without zeros in front. -/
def decimalByte? (cs : List Char) : Option Nat :=
  if cs.isEmpty ∨ (cs.head? = some '0' ∧ cs.length ≠ 1) then none
  else
    match digitsIn? 10 cs with
    | some n => if n < 256 then some n else none
    | none => none

/-- Four decimal bytes as two parts. -/
def tail6? (cs : List Char) : Option (List Nat) :=
  match (splitAt '.' cs).mapM decimalByte? with
  | some [a, b, c, d] => some [a * 256 + b, c * 256 + d]
  | _ => none

/-- The parts between colons; the last one may be an address of four. -/
def parts6? : List (List Char) → Option (List Nat)
  | [] => some []
  | [p] => if p.contains '.' then tail6? p else (part6? p).map ([·])
  | p :: r =>
    match part6? p with
    | none => none
    | some n => (parts6? r).map (n :: ·)

/-- The parts of a text that may be empty. -/
def someParts6? (cs : List Char) : Option (List Nat) :=
  if cs.isEmpty then some [] else parts6? (splitAt ':' cs)

/-- The text before and behind the first two colons in a row. -/
def splitDouble? : List Char → Option (List Char × List Char)
  | ':' :: ':' :: r => some ([], r)
  | c :: r => (splitDouble? r).map fun p => (c :: p.1, p.2)
  | [] => none

/-- Eight parts, of which two colons in a row stand for one zero or more. -/
def address6? (cs : List Char) : Option (List Nat) :=
  match splitDouble? cs with
  | none =>
    match parts6? (splitAt ':' cs) with
    | some ps => if ps.length = 8 then some ps else none
    | none => none
  | some (front, back) =>
    if front.contains '.' then none
    else
      match someParts6? front, someParts6? back with
      | some xs, some ys =>
        if xs.length + ys.length ≤ 7 then
          some (xs ++ List.replicate (8 - xs.length - ys.length) 0 ++ ys)
        else none
      | _, _ => none

/-! ## Hosts -/

/-- Characters that must not occur in a name. -/
def refusedAscii : List Char := "%#/:<>?@[\\]^|".toList

/-- A name, its characters replaced by what they stand for. -/
def foldName? (cs : List Char) : Option (List Char) :=
  match cs.mapM nameCharacter? with
  | none => none
  | some pieces =>
    let name := pieces.flatten
    if name.any fun c => c.toNat ≤ 0x20 || c.toNat = 0x7F || c ∈ refusedAscii then none
    else some name

namespace Host

/-- The host that a text names. -/
def parse? (cs : List Char) : Option Host :=
  if cs.head? = some '[' then
    if cs.getLast? = some ']' then (address6? (cs.drop 1).dropLast).map address6 else none
  else
    match (Text.decode? (percentDecode (Text.encode (String.ofList cs)))).bind
      fun s => foldName? s.toList with
    | none => none
    | some folded =>
      if folded.isEmpty then none
      else if endsInNumber folded then (address4? folded).map address4
      else some (.name (String.ofList folded))

/-- Whether the host is the machine itself. -/
def isLoopback : Host → Bool
  | .name labels => labels = "localhost"
  | .address4 n => n / Nat.pow 2 24 = 127
  | .address6 parts => parts = [0, 0, 0, 0, 0, 0, 0, 1]

end Host

end SmellWatch.Url
