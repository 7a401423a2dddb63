import SmellWatch.Decimal.Reading
import SmellWatch.Json.Source
/-! The smallest parts of a TOML text: blanks, comments, strings, numbers and dates.

Each reader takes its part off the front of the characters and gives the rest. -/

namespace SmellWatch.Toml

open Decimal

/-- A part and what follows it. -/
abbrev Parsed (α : Type) := Option (α × List Char)

/-! ## Blanks and comments -/

def isSpace (c : Char) : Bool := c = ' ' || c = '\t'

def skipSpaces (cs : List Char) : List Char := cs.dropWhile isSpace

/-- What may stand in a comment and in a literal string: no control but the tab. -/
def isPlain (c : Char) : Bool := c = '\t' || (0x20 ≤ c.toNat && c.toNat ≠ 0x7F)

/-- The rest after a comment, up to its line end. -/
def skipComment : List Char → List Char
  | '#' :: r => r.dropWhile isPlain
  | cs => cs

/-- The rest after one line end. -/
def lineEnd? : List Char → Option (List Char)
  | '\n' :: r => some r
  | '\r' :: '\n' :: r => some r
  | _ => none

/-- What may follow a statement: blanks, a comment, a line end or the end. -/
def statementEnd? (cs : List Char) : Option (List Char) :=
  match skipComment (skipSpaces cs) with
  | [] => some []
  | r => lineEnd? r

/-- Blanks, comments and line ends, as many as there are; `fuel` bounds the lines. -/
def skipLines : Nat → List Char → List Char
  | 0, cs => cs
  | fuel + 1, cs =>
    let r := skipComment (skipSpaces cs)
    match lineEnd? r with
    | some rest => skipLines fuel rest
    | none => r

/-! ## Strings -/

/-- Exactly `count` hexadecimal digits as a number. -/
def hexNumber? (count : Nat) (cs : List Char) : Parsed Nat :=
  let ds := cs.take count
  if ds.length < count then none
  else (ds.mapM hexDigit?).map fun ns => (ns.foldl (fun n d => n * 16 + d) 0, cs.drop count)

/-- The character with a code point, which may not be a surrogate. -/
def codePoint? (n : Nat) : Option Char :=
  if n.isValidChar then some (Char.ofNat n) else none

/-- An escape, after its backslash. -/
def escape? : List Char → Option (Char × List Char)
  | [] => none
  | c :: r =>
    if c = 'b' then some (Char.ofNat 8, r)
    else if c = 't' then some ('\t', r)
    else if c = 'n' then some ('\n', r)
    else if c = 'f' then some (Char.ofNat 12, r)
    else if c = 'r' then some ('\r', r)
    else if c = 'e' then some (Char.ofNat 27, r)
    else if c = '"' || c = '\\' then some (c, r)
    else
      let count := if c = 'x' then 2 else if c = 'u' then 4 else if c = 'U' then 8 else 0
      if count = 0 then none
      else do
        let (n, rest) ← hexNumber? count r
        let d ← codePoint? n
        return (d, rest)

/-- A string between single quotes on one line; `acc` is held backwards. -/
def literalString (acc : List Char) : List Char → Parsed String
  | [] => none
  | c :: r =>
    if c = '\'' then some (String.ofList acc.reverse, r)
    else if isPlain c then literalString (c :: acc) r
    else none

/-- A string between double quotes on one line. -/
def basicString : Nat → List Char → List Char → Parsed String
  | 0, _, _ => none
  | _, _, [] => none
  | fuel + 1, acc, c :: r =>
    if c = '"' then some (String.ofList acc.reverse, r)
    else if c = '\\' then
      match escape? r with
      | some (d, rest) => basicString fuel (d :: acc) rest
      | none => none
    else if isPlain c then basicString fuel (c :: acc) r
    else none

/-- The quotes that end a string over several lines: three, with up to two more that
belong to the string. -/
def closing? (quote : Char) (cs : List Char) : Option (List Char × List Char) :=
  let n := min 5 (cs.takeWhile (· = quote)).length
  if n < 3 then none else some (List.replicate (n - 3) quote, cs.drop n)

/-- A string between three single quotes. -/
def literalLines : Nat → List Char → List Char → Parsed String
  | 0, _, _ => none
  | _, _, [] => none
  | fuel + 1, acc, c :: r =>
    match closing? '\'' (c :: r) with
    | some (extra, rest) => some (String.ofList (acc.reverse ++ extra), rest)
    | none =>
      match lineEnd? (c :: r) with
      | some rest => literalLines fuel ('\n' :: acc) rest
      | none => if isPlain c then literalLines fuel (c :: acc) r else none

/-- The rest after a backslash that ends a line: blanks and line ends vanish up to
the next visible character. -/
def joinedLine? (fuel : Nat) (cs : List Char) : Option (List Char) :=
  match lineEnd? (skipSpaces cs) with
  | none => none
  | some r => some (skipBlankLines fuel r)
where
  skipBlankLines : Nat → List Char → List Char
    | 0, cs => cs
    | fuel + 1, cs =>
      match lineEnd? (skipSpaces cs) with
      | some r => skipBlankLines fuel r
      | none => skipSpaces cs

/-- A string between three double quotes. -/
def basicLines : Nat → List Char → List Char → Parsed String
  | 0, _, _ => none
  | _, _, [] => none
  | fuel + 1, acc, c :: r =>
    match closing? '"' (c :: r) with
    | some (extra, rest) => some (String.ofList (acc.reverse ++ extra), rest)
    | none =>
      if c = '\\' then
        match joinedLine? fuel r with
        | some rest => basicLines fuel acc rest
        | none =>
          match escape? r with
          | some (d, rest) => basicLines fuel (d :: acc) rest
          | none => none
      else
        match lineEnd? (c :: r) with
        | some rest => basicLines fuel ('\n' :: acc) rest
        | none => if isPlain c then basicLines fuel (c :: acc) r else none

/-- The rest without a line end right at the front. -/
def dropLineEnd (cs : List Char) : List Char := (lineEnd? cs).getD cs

/-- A string of any kind. -/
def string? (cs : List Char) : Parsed String :=
  let fuel := cs.length + 1
  match cs with
  | '"' :: '"' :: '"' :: r => basicLines fuel [] (dropLineEnd r)
  | '"' :: r => basicString fuel [] r
  | '\'' :: '\'' :: '\'' :: r => literalLines fuel [] (dropLineEnd r)
  | '\'' :: r => literalString [] r
  | _ => none

/-! ## Numbers -/

/-- Digits of a class with single low lines between them, the low lines removed. -/
def digitRun? (isDigit : Char → Bool) : List Char → Option (List Char)
  | [] => none
  | [c] => if isDigit c then some [c] else none
  | c :: d :: r =>
    if !isDigit c then none
    else if d = '_' then (digitRun? isDigit r).map (c :: ·)
    else (digitRun? isDigit (d :: r)).map (c :: ·)

/-- A natural number in some base, after the mark of the base. -/
def inBase? (base : Nat) (isDigit : Char → Bool) (cs : List Char) : Option Int :=
  (digitRun? isDigit cs).map fun ds =>
    ((ds.foldl (fun n c => n * base + (hexDigit? c).getD 0) 0 : Nat) : Int)

/-- Decimal digits without a needless zero in front. -/
def decimalRun? (cs : List Char) : Option (List Char) :=
  (digitRun? Char.isDigit cs).filter fun ds => ds.head? ≠ some '0' || ds.length = 1

def integer? (cs : List Char) : Option Int :=
  match cs with
  | '0' :: 'x' :: r => inBase? 16 (fun c => (hexDigit? c).isSome) r
  | '0' :: 'o' :: r => inBase? 8 (fun c => '0' ≤ c && c ≤ '7') r
  | '0' :: 'b' :: r => inBase? 2 (fun c => c = '0' || c = '1') r
  | _ =>
    let (negative, r) := splitSign cs
    (decimalRun? r).map fun ds =>
      if negative then - (digitsValue ds : Int) else (digitsValue ds : Int)

/-- A number with places or an exponent, or one of the words for infinity and for
no number. A finite text of an infinite number is refused. -/
def float? (cs : List Char) : Option Double :=
  let (negative, r) := splitSign cs
  let ofBits := fun bits : Nat =>
    Double.ofBits ((if negative then Format.double.signBit else 0) + bits)
  if r = ['i', 'n', 'f'] then some (ofBits Format.double.infinity)
  else if r = ['n', 'a', 'n'] then
    some (ofBits (Format.double.infinity + Nat.pow 2 (Format.double.fraction - 1)))
  else do
    let mantissa := r.takeWhile fun c => c ≠ 'e' && c ≠ 'E'
    let power := r.drop mantissa.length
    let whole ← decimalRun? (mantissa.takeWhile (· ≠ '.'))
    let places ← match mantissa.dropWhile (· ≠ '.') with
      | [] => some []
      | _ :: ds => digitRun? Char.isDigit ds
    let exponent ← match power with
      | [] => some 0
      | _ :: ds =>
        let (minus, es) := splitSign ds
        (digitRun? Char.isDigit es).map fun es =>
          if minus then - (digitsValue es : Int) else (digitsValue es : Int)
    if places.isEmpty && power.isEmpty then none
    else
      let w : Written := ⟨negative, digitsValue (whole ++ places),
        exponent - (places.length : Int)⟩
      let bits := w.round .double
      if bits = Format.double.infinity then none else some (ofBits bits)

/-! ## Dates -/

/-- Exactly `count` decimal digits as a number. -/
def fixedDigits? (count : Nat) (cs : List Char) : Parsed Nat :=
  let ds := cs.take count
  if ds.length < count || !ds.all Char.isDigit then none
  else some (digitsValue ds, cs.drop count)

def expect? (c : Char) : List Char → Option (List Char)
  | d :: r => if c = d then some r else none
  | [] => none

def isLeapYear (y : Nat) : Bool := y % 4 = 0 && (y % 100 ≠ 0 || y % 400 = 0)

def daysIn (year month : Nat) : Nat :=
  if month = 2 then if isLeapYear year then 29 else 28
  else if month = 4 || month = 6 || month = 9 || month = 11 then 30
  else 31

/-- A day of the calendar; the rest after it. -/
def date? (cs : List Char) : Option (List Char) := do
  let (year, r) ← fixedDigits? 4 cs
  let (month, r) ← fixedDigits? 2 (← expect? '-' r)
  let (day, r) ← fixedDigits? 2 (← expect? '-' r)
  if 1 ≤ month && month ≤ 12 && 1 ≤ day && day ≤ daysIn year month then some r else none

/-- A time of day, whose seconds may be missing; the rest after it. -/
def time? (cs : List Char) : Option (List Char) := do
  let (hour, r) ← fixedDigits? 2 cs
  let (minute, r) ← fixedDigits? 2 (← expect? ':' r)
  if 23 < hour || 59 < minute then none
  else
    match r with
    | ':' :: r =>
      let (second, r) ← fixedDigits? 2 r
      if 60 < second then none
      else
        match r with
        | '.' :: r =>
          let places := r.takeWhile Char.isDigit
          if places.isEmpty then none else some (r.drop places.length)
        | _ => some r
    | _ => some r

/-- The distance to universal time, which may be missing; nothing may follow. -/
def isOffset (cs : List Char) : Bool :=
  match cs with
  | [] => true
  | c :: r =>
    if c = 'Z' || c = 'z' then r.isEmpty
    else if c = '+' || c = '-' then
      match (do
        let (hour, r) ← fixedDigits? 2 r
        let (minute, r) ← fixedDigits? 2 (← expect? ':' r)
        return (hour, minute, r) : Option (Nat × Nat × List Char)) with
      | some (hour, minute, r) => hour ≤ 23 && minute ≤ 59 && r.isEmpty
      | none => false
    else false

/-- A date, a time, or both. -/
def isDateTime (cs : List Char) : Bool :=
  match date? cs with
  | some [] => true
  | some (c :: r) =>
    (c = 'T' || c = 't' || c = ' ') && (match time? r with
      | some rest => isOffset rest
      | none => false)
  | none => time? cs == some []

end SmellWatch.Toml
