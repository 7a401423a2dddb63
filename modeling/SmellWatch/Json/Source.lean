import SmellWatch.Json.Value
/-! JSON texts.

A text is read in two passes. The lexer takes one character at a time and yields
tokens; the builder takes one token at a time and keeps the containers that are
still open on a stack. What comes out is a `JsonSource`: the text taken apart, with
repeated keys kept, and with the strings and numbers that have no value marked
(a half of a surrogate pair alone, a number beyond the greatest one). Whoever reads
a record from it can pass over such a part; `JsonSource.value?` refuses it.

* `Builder.run_append`: the builder reads a concatenation piece by piece. -/

namespace SmellWatch

open Decimal

/-- A JSON text taken apart. -/
inductive JsonSource
  | null
  | bool (b : Bool)
  | number (n : Option JsonNumber)
  | string (s : Option String)
  | array (items : List JsonSource)
  | object (fields : List (Option String × JsonSource))
deriving Inhabited

/-! ## Strings

The characters of a string are collected backwards; an escape `\uXXXX` of a
surrogate stays a number until its other half is seen. -/

/-- A character, or half of a surrogate pair. -/
inductive JsonUnit
  | char (c : Char)
  | half (n : Nat)
deriving DecidableEq, Repr

def isHighHalf (n : Nat) : Bool := 0xD800 ≤ n && n ≤ 0xDBFF

def isLowHalf (n : Nat) : Bool := 0xDC00 ≤ n && n ≤ 0xDFFF

/-- The character of four hexadecimal digits. -/
def JsonUnit.ofCode (n : Nat) : JsonUnit :=
  if isHighHalf n || isLowHalf n then .half n else .char (Char.ofNat n)

/-- The units as characters, each high half followed by its low half. -/
def pairHalves : List JsonUnit → Option (List Char)
  | [] => some []
  | .char c :: r => (pairHalves r).map (c :: ·)
  | .half h :: .half l :: r =>
    if isHighHalf h && isLowHalf l then
      (pairHalves r).map (Char.ofNat ((h - 0xD800) * 0x400 + (l - 0xDC00) + 0x10000) :: ·)
    else none
  | .half _ :: _ => none

/-! ## Numbers

A number is a minus sign at most, digits without a needless zero in front, at most
a point with digits after it, and at most an exponent. Its digits are collected in
64 bits; once they no longer fit, further digits count only by their place. The
double is that integer scaled by a power of ten, one rounding each. -/

/-- The greatest power of ten that is a double. -/
def greatestPower : Nat := 308

def powerOfTen (n : Nat) : Double := .ofQuotient false (Nat.pow 10 n) 1

namespace Decimal.Double

/-- The product of a double and a power of ten; neither is negative. -/
def timesPower (x : Double) (n : Nat) : Double :=
  let (a, b) := x.quotient
  let (c, d) := (powerOfTen n).quotient
  .ofQuotient false (a * c) (b * d)

def dividedByPower (x : Double) (n : Nat) : Double :=
  let (a, b) := x.quotient
  let (c, d) := (powerOfTen n).quotient
  .ofQuotient false (a * d) (b * c)

end Decimal.Double

/-- `x / 10 ^ n`, by at most `fuel` divisions by the greatest power. -/
def scaleDown (x : Double) : Nat → Nat → Double
  | 0, _ => x
  | fuel + 1, n =>
    if n ≤ greatestPower then x.dividedByPower n
    else if x.quotient.1 = 0 then x
    else scaleDown (x.dividedByPower greatestPower) fuel (n - greatestPower)

/-- `digits * 10 ^ exponent` as a double, unless it is too great. -/
def scaleDecimal (digits : Nat) (exponent : Int) : Option Double :=
  let x := Double.ofNat digits
  if 0 ≤ exponent then
    if exponent.toNat ≤ greatestPower then
      let y := x.timesPower exponent.toNat
      if y.isInfinite then none else some y
    else if digits = 0 then some x
    else none
  else some (scaleDown x 4 (-exponent).toNat)

/-- Digits gathered in 64 bits: the integer, and the count of digits left out. -/
def gatherDigits (n : Nat) : List Char → Nat × Nat
  | [] => (n, 0)
  | c :: r =>
    let m := n * 10 + (c.toNat - '0'.toNat)
    if m < Nat.pow 2 64 then gatherDigits m r else (n, (c :: r).length)

/-- A number as written. -/
structure NumberText where
  negative : Bool
  whole : List Char
  places : List Char
  exponent : Option (Bool × List Char)
  pointed : Bool
deriving DecidableEq, Repr

/-- A double with a sign. -/
def signed (negative : Bool) (x : Double) : JsonNumber :=
  .double (if negative then ⟨x.bits ||| 0x8000000000000000⟩ else x)

/-- The value of a number text, unless it is too great. -/
def NumberText.value (t : NumberText) : Option JsonNumber :=
  let (n, dropped) := gatherDigits 0 t.whole
  let plain := !t.pointed && t.exponent.isNone
  if plain && dropped = 0 then
    if !t.negative then some (.natural n)
    else if n = 0 || Nat.pow 2 63 < n then some (signed true (Double.ofNat n))
    else some (.negative n)
  else
    let (m, left) := gatherDigits n t.places
    let base : Int := (dropped : Int) - ((t.places.length - left : Nat) : Int)
    match t.exponent with
    | none => (scaleDecimal m base).map (signed t.negative)
    | some (minus, ds) =>
      let (e, huge) := gatherExponent 0 ds
      if huge then if m ≠ 0 && !minus then none else some (signed t.negative (Double.ofNat 0))
      else (scaleDecimal m (if minus then base - e else base + e)).map (signed t.negative)
where
  /-- An exponent, and whether it leaves 31 bits. -/
  gatherExponent (e : Nat) : List Char → Nat × Bool
    | [] => (e, false)
    | c :: r =>
      let f := e * 10 + (c.toNat - '0'.toNat)
      if f < Nat.pow 2 31 then gatherExponent f r else (e, true)

/-- The exponent at the front, which must be all that is left. -/
def exponentText? : List Char → Option (Option (Bool × List Char))
  | [] => some none
  | c :: r =>
    if c = 'e' ∨ c = 'E' then
      let (minus, ds) : Bool × List Char := match r with
        | '-' :: q => (true, q)
        | '+' :: q => (false, q)
        | _ => (false, r)
      if ds.isEmpty || !ds.all Char.isDigit then none else some (some (minus, ds))
    else none

/-- A number text read whole. -/
def numberText? (cs : List Char) : Option NumberText :=
  let (negative, r) : Bool × List Char := match cs with
    | '-' :: r => (true, r)
    | _ => (false, cs)
  let whole := r.takeWhile Char.isDigit
  let rest := r.dropWhile Char.isDigit
  if whole.isEmpty || (whole.head? == some '0' && 1 < whole.length) then none
  else
    match rest with
    | '.' :: q =>
      let places := q.takeWhile Char.isDigit
      if places.isEmpty then none
      else (exponentText? (q.dropWhile Char.isDigit)).map (⟨negative, whole, places, ·, true⟩)
    | _ => (exponentText? rest).map (⟨negative, whole, [], ·, false⟩)

/-! ## Lexer -/

inductive JsonToken
  | openArray
  | closeArray
  | openObject
  | closeObject
  | comma
  | colon
  | null
  | bool (b : Bool)
  | number (n : Option JsonNumber)
  | string (s : Option String)
deriving DecidableEq, Repr

/-- A word outside quotes. -/
def bareToken? (cs : List Char) : Option JsonToken :=
  if cs = ['n', 'u', 'l', 'l'] then some .null
  else if cs = ['t', 'r', 'u', 'e'] then some (.bool true)
  else if cs = ['f', 'a', 'l', 's', 'e'] then some (.bool false)
  else (numberText? cs).map fun t => .number t.value

/-- Where the lexer stands: between tokens, in a word or number, in a string, or in
an escape of a string. What was read is held backwards. -/
inductive JsonLexer
  | between
  | bare (read : List Char)
  | quoted (read : List JsonUnit)
  | escape (read : List JsonUnit)
  | code (read : List JsonUnit) (digits : Nat) (value : Nat)
deriving DecidableEq, Repr

def hexDigit? (c : Char) : Option Nat :=
  if c.isDigit then some (c.toNat - '0'.toNat)
  else if 'a' ≤ c && c ≤ 'f' then some (c.toNat - 'a'.toNat + 10)
  else if 'A' ≤ c && c ≤ 'F' then some (c.toNat - 'A'.toNat + 10)
  else none

def isJsonBlank (c : Char) : Bool := c = ' ' || c = '\n' || c = '\t' || c = '\r'

namespace JsonLexer

/-- A character between tokens. -/
def stepBetween (c : Char) : JsonLexer × List JsonToken :=
  if isJsonBlank c then (.between, [])
  else if c = '[' then (.between, [.openArray])
  else if c = ']' then (.between, [.closeArray])
  else if c = '{' then (.between, [.openObject])
  else if c = '}' then (.between, [.closeObject])
  else if c = ',' then (.between, [.comma])
  else if c = ':' then (.between, [.colon])
  else if c = '"' then (.quoted [], [])
  else (.bare [c], [])

def endsBare (c : Char) : Bool :=
  isJsonBlank c || c = '[' || c = ']' || c = '{' || c = '}' || c = ',' || c = ':' || c = '"'

/-- The unit of a one-letter escape. -/
def escaped? (c : Char) : Option Char :=
  if c = '"' || c = '\\' || c = '/' then some c
  else if c = 'b' then some (Char.ofNat 8)
  else if c = 'f' then some (Char.ofNat 12)
  else if c = 'n' then some '\n'
  else if c = 'r' then some '\r'
  else if c = 't' then some '\t'
  else none

/-- One character: the state after it and the tokens it completes. -/
def step : JsonLexer → Char → Option (JsonLexer × List JsonToken)
  | .between, c => some (stepBetween c)
  | .bare read, c =>
    if endsBare c then
      (bareToken? read.reverse).map fun t =>
        let (s, ts) := stepBetween c
        (s, t :: ts)
    else some (.bare (c :: read), [])
  | .quoted read, c =>
    if c = '"' then
      some (.between, [.string ((pairHalves read.reverse).map String.ofList)])
    else if c = '\\' then some (.escape read, [])
    else if c.toNat < 0x20 then none
    else some (.quoted (.char c :: read), [])
  | .escape read, c =>
    if c = 'u' then some (.code read 0 0, [])
    else (escaped? c).map fun e => (.quoted (.char e :: read), [])
  | .code read digits value, c =>
    (hexDigit? c).map fun d =>
      if digits = 3 then (.quoted (.ofCode (value * 16 + d) :: read), [])
      else (.code read (digits + 1) (value * 16 + d), [])

/-- The tokens that the end of the text completes. -/
def finish : JsonLexer → Option (List JsonToken)
  | .between => some []
  | .bare read => (bareToken? read.reverse).map ([·])
  | _ => none

/-- All tokens of a text, from a state; `done` holds the earlier ones backwards. -/
def run (s : JsonLexer) (done : List JsonToken) : List Char → Option (List JsonToken)
  | [] => s.finish.map fun ts => done.reverse ++ ts
  | c :: r =>
    match s.step c with
    | none => none
    | some (s', ts) => run s' (ts.reverse ++ done) r

end JsonLexer

def jsonTokens (cs : List Char) : Option (List JsonToken) := JsonLexer.run .between [] cs

/-! ## Builder -/

/-- A container that is still open; its parts are held backwards. -/
inductive JsonFrame
  | array (items : List JsonSource)
  | object (fields : List (Option String × JsonSource)) (key : Option String)

/-- What may come next. -/
inductive JsonExpect
  | value
  | valueOrClose
  | keyOrClose
  | key
  | colon
  | commaOrClose
  | nothing
deriving DecidableEq, Repr

/-- The builder between two tokens: the open containers, innermost first, what may
come next, and the finished text. -/
structure JsonBuilder where
  frames : List JsonFrame
  expect : JsonExpect
  result : Option JsonSource

namespace JsonBuilder

def start : JsonBuilder := ⟨[], .value, none⟩

/-- A finished value goes into the innermost open container. -/
def put (frames : List JsonFrame) (v : JsonSource) : JsonBuilder :=
  match frames with
  | [] => ⟨[], .nothing, some v⟩
  | .array items :: r => ⟨.array (v :: items) :: r, .commaOrClose, none⟩
  | .object fields key :: r => ⟨.object ((key, v) :: fields) none :: r, .commaOrClose, none⟩

/-- A token at the place of a value. -/
def value (frames : List JsonFrame) : JsonToken → Option JsonBuilder
  | .openArray => some ⟨.array [] :: frames, .valueOrClose, none⟩
  | .openObject => some ⟨.object [] none :: frames, .keyOrClose, none⟩
  | .null => some (put frames .null)
  | .bool b => some (put frames (.bool b))
  | .number n => some (put frames (.number n))
  | .string s => some (put frames (.string s))
  | _ => none

def closeArray : List JsonFrame → Option JsonBuilder
  | .array items :: r => some (put r (.array items.reverse))
  | _ => none

def closeObject : List JsonFrame → Option JsonBuilder
  | .object fields _ :: r => some (put r (.object fields.reverse))
  | _ => none

/-- A token at the place of a key. -/
def key : List JsonFrame → JsonToken → Option JsonBuilder
  | .object fields _ :: r, .string s => some ⟨.object fields s :: r, .colon, none⟩
  | _, _ => none

/-- A comma: what it announces depends on the container. -/
def comma : List JsonFrame → Option JsonBuilder
  | .array items :: r => some ⟨.array items :: r, .value, none⟩
  | .object fields k :: r => some ⟨.object fields k :: r, .key, none⟩
  | [] => none

/-- One token. -/
def step (b : JsonBuilder) (t : JsonToken) : Option JsonBuilder :=
  match b.expect, t with
  | .value, t => value b.frames t
  | .valueOrClose, .closeArray => closeArray b.frames
  | .valueOrClose, t => value b.frames t
  | .keyOrClose, .closeObject => closeObject b.frames
  | .keyOrClose, t => key b.frames t
  | .key, t => key b.frames t
  | .colon, .colon => some ⟨b.frames, .value, none⟩
  | .commaOrClose, .comma => comma b.frames
  | .commaOrClose, .closeArray => closeArray b.frames
  | .commaOrClose, .closeObject => closeObject b.frames
  | _, _ => none

def run (b : JsonBuilder) : List JsonToken → Option JsonBuilder
  | [] => some b
  | t :: r => (b.step t).bind fun b' => run b' r

theorem run_append (b : JsonBuilder) (ts us : List JsonToken) :
    b.run (ts ++ us) = (b.run ts).bind fun b' => b'.run us := by
  induction ts generalizing b with
  | nil => rfl
  | cons t r ih =>
    simp only [List.cons_append, run]
    cases b.step t with
    | none => rfl
    | some b' => simp [ih]

end JsonBuilder

namespace JsonSource

def ofTokens? (ts : List JsonToken) : Option JsonSource :=
  (JsonBuilder.start.run ts).bind JsonBuilder.result

def ofChars? (cs : List Char) : Option JsonSource := (jsonTokens cs).bind ofTokens?

/-- A text with nothing but one JSON value in it. -/
def ofText? (s : String) : Option JsonSource := ofChars? s.toList

/-! ## The value of a text -/

/-- Containers inside one another at most. -/
def depthLimit : Nat := 128

mutual

/-- The value, if it has one and nests fewer than `room` containers. -/
def value? (room : Nat) : JsonSource → Option Json
  | .null => some .null
  | .bool b => some (.bool b)
  | .number n => n.map .number
  | .string s => s.map .string
  | .array items => if room ≤ 1 then none else (values? (room - 1) items).map .array
  | .object fields => if room ≤ 1 then none else (fields? (room - 1) fields).map .ofFields

def values? (room : Nat) : List JsonSource → Option (List Json)
  | [] => some []
  | x :: r =>
    match value? room x with
    | none => none
    | some v => (values? room r).map (v :: ·)

def fields? (room : Nat) : List (Option String × JsonSource) → Option Json.Fields
  | [] => some []
  | (none, _) :: _ => none
  | (some k, x) :: r =>
    match value? room x with
    | none => none
    | some v => (fields? room r).map ((k, v) :: ·)

end

mutual

/-- A value as a text that was taken apart. -/
def ofValue : Json → JsonSource
  | .null => .null
  | .bool b => .bool b
  | .number n => .number (some n)
  | .string s => .string (some s)
  | .array items => .array (ofValues items)
  | .object fields => .object (ofFields fields)

def ofValues : List Json → List JsonSource
  | [] => []
  | v :: r => ofValue v :: ofValues r

def ofFields : List (String × Json) → List (Option String × JsonSource)
  | [] => []
  | (k, v) :: r => (some k, ofValue v) :: ofFields r

end

end JsonSource

/-- The value of a JSON text. -/
def Json.parse? (s : String) : Option Json :=
  (JsonSource.ofText? s).bind (JsonSource.value? JsonSource.depthLimit)

end SmellWatch
