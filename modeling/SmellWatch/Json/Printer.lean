import SmellWatch.Json.Value
import SmellWatch.Decimal.Shortest
/-! Writing JSON, compact or over several lines.

Quotes, backslashes and control characters are escaped and everything else stands
as it is. A fraction is written as the shortest decimal that reads back, with a
point or an exponent. -/

namespace SmellWatch

open Decimal

/-- Fractions of 64 bits are positional from 1e-5 to below 1e16. -/
def doubleStyle : Style := ⟨-5, 15, "+"⟩

/-- Fractions of 32 bits are positional from 1e-6 to below 1e13. -/
def singleStyle : Style := ⟨-6, 12, "+"⟩

namespace Json

/-- Four hexadecimal digits. -/
def fourHex (n : Nat) : List Char :=
  [n / 4096 % 16, n / 256 % 16, n / 16 % 16, n % 16].map Nat.digitChar

/-- A character as it stands in a string. -/
def escapeChar (c : Char) : List Char :=
  if c = '"' then ['\\', '"']
  else if c = '\\' then ['\\', '\\']
  else if c = '\n' then ['\\', 'n']
  else if c = '\r' then ['\\', 'r']
  else if c = '\t' then ['\\', 't']
  else if c.toNat = 8 then ['\\', 'b']
  else if c.toNat = 12 then ['\\', 'f']
  else if c.toNat < 0x20 then '\\' :: 'u' :: fourHex c.toNat
  else [c]

def quote (s : String) : String :=
  String.ofList ('"' :: s.toList.flatMap escapeChar ++ ['"'])

/-- The text of a number; only finite numbers have one of their own. -/
def numberText : JsonNumber → String
  | .natural n => toString n
  | .negative n => "-" ++ toString n
  | .double x =>
    if x.isFinite then doubleStyle.writeBits .double x.bits.toNat else "null"
  | .single x =>
    if x.isFinite then singleStyle.writeBits .single x.bits.toNat else "null"

mutual

/-- The text without any blanks. -/
def compact : Json → String
  | .null => "null"
  | .bool b => if b then "true" else "false"
  | .number n => numberText n
  | .string s => quote s
  | .array items => "[" ++ compactItems items ++ "]"
  | .object fields => "\x7b" ++ compactFields fields ++ "\x7d"

def compactItems : List Json → String
  | [] => ""
  | [v] => compact v
  | v :: r => compact v ++ "," ++ compactItems r

def compactFields : List (String × Json) → String
  | [] => ""
  | [(k, v)] => quote k ++ ":" ++ compact v
  | (k, v) :: r => quote k ++ ":" ++ compact v ++ "," ++ compactFields r

end

def newLine (depth : Nat) : String := "\n" ++ String.ofList (List.replicate (2 * depth) ' ')

mutual

/-- The text with one item or field a line, two blanks deeper than its container. -/
def pretty (depth : Nat) : Json → String
  | .null => "null"
  | .bool b => if b then "true" else "false"
  | .number n => numberText n
  | .string s => quote s
  | .array [] => "[]"
  | .array (v :: r) =>
    "[" ++ newLine (depth + 1) ++ pretty (depth + 1) v ++ prettyItems (depth + 1) r ++
      newLine depth ++ "]"
  | .object [] => "\x7b\x7d"
  | .object ((k, v) :: r) =>
    "\x7b" ++ newLine (depth + 1) ++ quote k ++ ": " ++ pretty (depth + 1) v ++
      prettyFields (depth + 1) r ++ newLine depth ++ "\x7d"

/-- Further items, a comma before each. -/
def prettyItems (depth : Nat) : List Json → String
  | [] => ""
  | v :: r => "," ++ newLine depth ++ pretty depth v ++ prettyItems depth r

def prettyFields (depth : Nat) : List (String × Json) → String
  | [] => ""
  | (k, v) :: r =>
    "," ++ newLine depth ++ quote k ++ ": " ++ pretty depth v ++ prettyFields depth r

end

end Json

end SmellWatch
