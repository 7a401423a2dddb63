import SmellWatch.Json.Source
/-! Reading records from texts that were taken apart.

A record is an object, of which unknown fields are passed over and no known field
may stand twice, or an array with the values of the fields in their order. A
`RecordField` says what its absence means: in an object and at the end of an
array. `RecordRules` holds what formats see differently. -/

namespace SmellWatch

open Decimal

/-- What a record knows of one of its fields. -/
structure RecordField where
  name : String
  /-- The field may be missing from an object. -/
  optional : Bool
  /-- The field may be missing at the end of an array. -/
  trailing : Bool
deriving DecidableEq, Repr

namespace RecordField

def required (name : String) : RecordField := ⟨name, false, false⟩

def optionalIn (name : String) : RecordField := ⟨name, true, false⟩

def defaulted (name : String) : RecordField := ⟨name, true, true⟩

end RecordField

/-- What formats see differently. -/
structure RecordRules where
  /-- Further items of an array are passed over. -/
  surplus : Bool
  /-- What a choice without parts may be given as its parts. -/
  noParts : JsonSource → Bool

namespace RecordRules

/-- No further items; a choice without parts has `null`. -/
def json : RecordRules where
  surplus := false
  noParts
    | .null => true
    | _ => false

/-- Further items are passed over; a choice without parts has an empty container. -/
def toml : RecordRules where
  surplus := true
  noParts
    | .object [] => true
    | .array [] => true
    | _ => false

end RecordRules

namespace JsonSource

/-- The values given for the key `name`. -/
def valuesOf (name : String) (fields : List (Option String × JsonSource)) : List JsonSource :=
  (fields.filter fun kv => kv.1 == some name).map (·.2)

/-- The parts of an object by the fields of a record, absent ones as `none`. -/
def objectParts? (known : List RecordField) (fields : List (Option String × JsonSource)) :
    Option (List (Option JsonSource)) :=
  if fields.any (fun kv => kv.1.isNone) then none
  else
    known.mapM fun f =>
      match valuesOf f.name fields with
      | [] => if f.optional then some none else none
      | [v] => some (some v)
      | _ => none

/-- The parts of an array by the fields of a record. -/
def arrayParts? (surplus : Bool) :
    List RecordField → List JsonSource → Option (List (Option JsonSource))
  | [], [] => some []
  | [], _ :: _ => if surplus then some [] else none
  | f :: fs, [] => if f.trailing then (arrayParts? surplus fs []).map (none :: ·) else none
  | _ :: fs, v :: vs => (arrayParts? surplus fs vs).map (some v :: ·)

/-- The parts of a record, one for each of its fields. -/
def partsBy? (rules : RecordRules) (known : List RecordField) :
    JsonSource → Option (List (Option JsonSource))
  | .object fields => objectParts? known fields
  | .array items => arrayParts? rules.surplus known items
  | _ => none

/-- The parts of a record by the rules of JSON. -/
def parts? (known : List RecordField) (s : JsonSource) : Option (List (Option JsonSource)) :=
  s.partsBy? .json known

/-- The name of a choice: alone, or as the only key over no parts. -/
def choice? (rules : RecordRules) : JsonSource → Option String
  | .string s => s
  | .object [(name, v)] => if rules.noParts v then name else none
  | _ => none

/-! ## Values of parts -/

def text? : JsonSource → Option String
  | .string s => s
  | _ => none

/-- A natural number of 32 bits. -/
def word? : JsonSource → Option Nat
  | .number (some (.natural n)) => if n < Nat.pow 2 32 then some n else none
  | _ => none

/-- A natural number of 64 bits. -/
def longWord? : JsonSource → Option Nat
  | .number (some (.natural n)) => some n
  | _ => none

/-- A number of 32 bits, rounded if it has to be. -/
def single? : JsonSource → Option Single
  | .number (some (.natural n)) => some (.ofNat n)
  | .number (some (.negative n)) => some (.ofQuotient true n 1)
  | .number (some (.double x)) => some x.toSingle
  | .number (some (.single x)) => some x
  | _ => none

def list? {α : Type} (item? : JsonSource → Option α) : JsonSource → Option (List α)
  | .array items => items.mapM item?
  | _ => none

/-- `null` or a value. -/
def nullable? {α : Type} (item? : JsonSource → Option α) : JsonSource → Option (Option α)
  | .null => some none
  | v => (item? v).map some

/-- A part that may be absent or `null`. -/
def optionPart? {α : Type} (item? : JsonSource → Option α) :
    Option JsonSource → Option (Option α)
  | none => some none
  | some v => nullable? item? v

/-- A part that has a default when it is absent. -/
def defaultPart? {α : Type} (item? : JsonSource → Option α) (default : α) :
    Option JsonSource → Option α
  | none => some default
  | some v => item? v

/-- A part that must be there. -/
def requiredPart? {α : Type} (item? : JsonSource → Option α) : Option JsonSource → Option α
  | none => none
  | some v => item? v

end JsonSource

end SmellWatch
