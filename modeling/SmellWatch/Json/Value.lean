import SmellWatch.Decimal.Binary
/-! JSON values.

An object is a list of fields. `Json.insert` keeps the fields in the order of
their keys and holds one field a key; a value that is only to be printed may list
its fields in any other order.

* `find?_insert_self`, `find?_insert_of_ne`: what `find?` sees of an insertion. -/

namespace SmellWatch

open Decimal

/-- A JSON number: a natural number below 2^64, a negative integer not below
-2^63, or a binary fraction. -/
inductive JsonNumber
  | natural (n : Nat)
  | negative (n : Nat)
  | double (x : Double)
  | single (x : Single)
deriving DecidableEq, Repr

inductive Json
  | null
  | bool (b : Bool)
  | number (n : JsonNumber)
  | string (s : String)
  | array (items : List Json)
  | object (fields : List (String × Json))
deriving Repr, Inhabited

namespace Json

def nat (n : Nat) : Json := .number (.natural n)

def int (n : Int) : Json :=
  if n < 0 then .number (.negative n.natAbs) else .number (.natural n.toNat)

/-- A number of 32 bits; what is no finite number becomes `null`. -/
def ofSingle (x : Single) : Json := if x.isFinite then .number (.single x) else .null

def ofDouble (x : Double) : Json := if x.isFinite then .number (.double x) else .null

def strings (xs : List String) : Json := .array (xs.map .string)

def ofOption {α : Type} (f : α → Json) : Option α → Json
  | none => .null
  | some a => f a

/-! ## Fields of an object -/

abbrev Fields := List (String × Json)

/-- The field `key` set to `value`, in the order of the keys. -/
def insert (key : String) (value : Json) : Fields → Fields
  | [] => [(key, value)]
  | (k, v) :: r =>
    if key = k then (key, value) :: r
    else if key < k then (key, value) :: (k, v) :: r
    else (k, v) :: insert key value r

/-- The value of the first field `key`. -/
def find? (key : String) : Fields → Option Json
  | [] => none
  | (k, v) :: r => if key = k then some v else find? key r

/-- The fields in the order of their keys; of equal keys the last one counts. -/
def ofFields (fields : Fields) : Json :=
  .object (fields.foldl (fun acc kv => insert kv.1 kv.2 acc) [])

/-- The field `key` of an object. -/
def get? (key : String) : Json → Option Json
  | .object fields => find? key fields
  | _ => none

def string? : Json → Option String
  | .string s => some s
  | _ => none

def isObject : Json → Bool
  | .object _ => true
  | _ => false

/-! ## Lemmas -/

theorem find?_insert_self (key : String) (value : Json) (fields : Fields) :
    find? key (insert key value fields) = some value := by
  induction fields with
  | nil => simp [insert, find?]
  | cons kv r ih =>
    simp only [insert]
    split
    · simp [find?]
    · split
      · simp [find?]
      · rename_i h _; simp [find?, h, ih]

theorem find?_insert_of_ne {key other : String} (h : other ≠ key) (value : Json)
    (fields : Fields) : find? other (insert key value fields) = find? other fields := by
  induction fields with
  | nil => simp [insert, find?, h]
  | cons kv r ih =>
    simp only [insert]
    split
    · rename_i hk; simp [find?, h, ← hk]
    · split
      · simp [find?, h]
      · simp [find?, ih]

end Json

end SmellWatch
