import SmellWatch.Toml.Lexeme
/-! TOML documents.

A document is a list of statements: headers, headers of array items, and
assignments. They are carried out one after the other on a tree that remembers how
each table came to be, because that decides who may still add to it. The finished
tree is handed on in the shape in which records are read. -/

namespace SmellWatch.Toml

open Decimal

/-- How a table came to be: only as the parent of another one, by a header of its
own, by a dotted key, or in one piece. -/
inductive Origin
  | implied
  | header
  | dotted
  | inline
deriving DecidableEq, Repr

/-- A value, a table, or the items of an array of tables, the last one first. -/
inductive Node
  | value (v : JsonSource)
  | table (origin : Origin) (entries : List (String × Node))
  | items (tables : List (List (String × Node)))
deriving Inhabited

abbrev Entries := List (String × Node)

def lookup (key : String) : Entries → Option Node
  | [] => none
  | (k, n) :: r => if k = key then some n else lookup key r

/-- The entry `key` replaced, or added behind the others. -/
def put (key : String) (n : Node) : Entries → Entries
  | [] => [(key, n)]
  | (k, m) :: r => if k = key then (k, n) :: r else (k, m) :: put key n r

/-! ## Changing the tree -/

/-- Adds `key = v` below a path of dotted keys. -/
def assign : List String → String → Node → Entries → Option Entries
  | [], key, v, entries =>
    match lookup key entries with
    | some _ => none
    | none => some (put key v entries)
  | p :: path, key, v, entries =>
    match lookup p entries with
    | none => (assign path key v []).map fun es => put p (.table .dotted es) entries
    | some (.table origin es) =>
      if origin = .dotted ∨ origin = .implied then
        (assign path key v es).map fun es' => put p (.table origin es') entries
      else none
    | some _ => none

/-- Carries out `change` on the table at a path of headers: an array of tables
stands for its last item. -/
def inTable (change : Entries → Option Entries) : List String → Entries → Option Entries
  | [], entries => change entries
  | p :: path, entries =>
    match lookup p entries with
    | none => (inTable change path []).map fun es => put p (.table .implied es) entries
    | some (.table .inline _) => none
    | some (.table origin es) =>
      (inTable change path es).map fun es' => put p (.table origin es') entries
    | some (.items (last :: r)) =>
      (inTable change path last).map fun es' => put p (.items (es' :: r)) entries
    | some _ => none

/-- A header: the table may have been implied so far, but not been written. -/
def openTable (key : String) (entries : Entries) : Option Entries :=
  match lookup key entries with
  | none => some (put key (.table .header []) entries)
  | some (.table .implied es) => some (put key (.table .header es) entries)
  | some _ => none

/-- A header of an array item. -/
def openItem (key : String) (entries : Entries) : Option Entries :=
  match lookup key entries with
  | none => some (put key (.items [[]]) entries)
  | some (.items ts) => some (put key (.items ([] :: ts)) entries)
  | some _ => none

/-! ## Finished values -/

mutual

def Node.source : Node → JsonSource
  | .value v => v
  | .table _ entries => .object (sourceEntries entries)
  | .items tables => .array (sourceItems tables).reverse

def sourceEntries : List (String × Node) → List (Option String × JsonSource)
  | [] => []
  | (k, n) :: r => (some k, n.source) :: sourceEntries r

def sourceItems : List (List (String × Node)) → List JsonSource
  | [] => []
  | es :: r => .object (sourceEntries es) :: sourceItems r

end

/-! ## Keys -/

def isBareKey (c : Char) : Bool := c.isAlphanum || c = '_' || c = '-'

/-- One key: bare, or a string on one line. -/
def key? (cs : List Char) : Parsed String :=
  match cs with
  | '"' :: r => basicString (cs.length + 1) [] r
  | '\'' :: r => literalString [] r
  | _ =>
    let name := cs.takeWhile isBareKey
    if name.isEmpty then none else some (String.ofList name, cs.drop name.length)

/-- Keys with points between them. -/
def keyPath? : Nat → List Char → Parsed (List String)
  | 0, _ => none
  | fuel + 1, cs =>
    match key? (skipSpaces cs) with
    | none => none
    | some (k, r) =>
      match skipSpaces r with
      | '.' :: rest => (keyPath? fuel rest).map fun (ks, end_) => (k :: ks, end_)
      | rest => some ([k], rest)

/-- The last key of a path and those before it. -/
def splitLast : List String → Option (List String × String)
  | [] => none
  | [k] => some ([], k)
  | k :: r => (splitLast r).map fun (ks, last) => (k :: ks, last)

/-! ## Values -/

def endsScalar (c : Char) : Bool :=
  c = ' ' || c = '\t' || c = '\n' || c = '\r' || c = ',' || c = ']' || c = '}' || c = '#'

/-- The characters of a scalar; a blank may part a date from its time. -/
def scalarText (cs : List Char) : List Char × List Char :=
  let text := cs.takeWhile (!endsScalar ·)
  let rest := cs.drop text.length
  match rest with
  | ' ' :: d :: r =>
    if d.isDigit && date? text == some [] then
      let more := (d :: r).takeWhile (!endsScalar ·)
      (text ++ ' ' :: more, (d :: r).drop more.length)
    else (text, rest)
  | _ => (text, rest)

/-- An integer; beyond 64 bits it has no value of its own. -/
def integerSource (n : Int) : JsonSource :=
  if 0 ≤ n then .number (if n < Nat.pow 2 64 then some (.natural n.toNat) else none)
  else .number (if -Nat.pow 2 63 ≤ n then some (.negative n.natAbs) else none)

/-- A date is no value that any setting takes; it reads as a table without entries
that anyone knows. -/
def dateSource : JsonSource := .object []

def scalar? (cs : List Char) : Option JsonSource :=
  if cs = ['t', 'r', 'u', 'e'] then some (.bool true)
  else if cs = ['f', 'a', 'l', 's', 'e'] then some (.bool false)
  else
    match integer? cs with
    | some n => if -Nat.pow 2 127 ≤ n ∧ n < Nat.pow 2 128 then some (integerSource n) else none
    | none =>
      match float? cs with
      | some x => some (.number (some (.double x)))
      | none => if isDateTime cs then some dateSource else none

/-- Containers inside one another at most. -/
def depthLimit : Nat := 80

mutual

/-- A value of any kind. `fuel` bounds the steps, `room` the containers. -/
def value? : Nat → Nat → List Char → Parsed JsonSource
  | 0, _, _ => none
  | fuel + 1, room, cs =>
    match cs with
    | [] => none
    | '[' :: r => if room = 0 then none else arrayItems fuel (room - 1) [] r
    | '{' :: r => if room = 0 then none else inlineEntries fuel (room - 1) [] r
    | c :: r =>
      if c = '"' || c = '\'' then
        (string? (c :: r)).map fun (s, rest) => (.string (some s), rest)
      else
        let (text, rest) := scalarText (c :: r)
        (scalar? text).map (·, rest)

/-- The items of an array after its bracket or after a comma; `done` is held
backwards. -/
def arrayItems : Nat → Nat → List JsonSource → List Char → Parsed JsonSource
  | 0, _, _, _ => none
  | fuel + 1, room, done, cs =>
    match skipLines cs.length cs with
    | ']' :: r => some (.array done.reverse, r)
    | rest =>
      match value? fuel room rest with
      | none => none
      | some (v, r) =>
        match skipLines r.length r with
        | ',' :: r => arrayItems fuel room (v :: done) r
        | ']' :: r => some (.array (v :: done).reverse, r)
        | _ => none

/-- The entries of an inline table after its brace or after a comma. -/
def inlineEntries : Nat → Nat → Entries → List Char → Parsed JsonSource
  | 0, _, _, _ => none
  | fuel + 1, room, entries, cs =>
    match skipLines cs.length cs with
    | '}' :: r => some (.object (sourceEntries entries), r)
    | rest =>
      match keyPath? (rest.length + 1) rest with
      | none => none
      | some (path, r) =>
        match splitLast path, skipSpaces r with
        | some (front, last), '=' :: r =>
          match value? fuel room (skipSpaces r) with
          | none => none
          | some (v, r) =>
            match assign front last (.value v) entries with
            | none => none
            | some entries =>
              match skipLines r.length r with
              | ',' :: r => inlineEntries fuel room entries r
              | '}' :: r => some (.object (sourceEntries entries), r)
              | _ => none
        | _, _ => none

end

/-! ## Statements -/

/-- The document so far and the path of the header in force. -/
structure Document where
  root : Entries
  path : List String

/-- A header with `count` brackets, after them. -/
def headerPath? (count : Nat) (cs : List Char) : Parsed (List String) :=
  match keyPath? (cs.length + 1) cs with
  | none => none
  | some (path, r) =>
    let close := List.replicate count ']'
    if close.isPrefixOf (skipSpaces r) then
      (statementEnd? ((skipSpaces r).drop count)).map (path, ·)
    else none

/-- One statement off the front. -/
def statement? (d : Document) (cs : List Char) : Option (Document × List Char) :=
  match cs with
  | '[' :: '[' :: r => do
    let (path, rest) ← headerPath? 2 r
    let (front, last) ← splitLast path
    let root ← inTable (openItem last) front d.root
    return (⟨root, path⟩, rest)
  | '[' :: r => do
    let (path, rest) ← headerPath? 1 r
    let (front, last) ← splitLast path
    let root ← inTable (openTable last) front d.root
    return (⟨root, path⟩, rest)
  | _ => do
    let (path, r) ← keyPath? (cs.length + 1) cs
    let (front, last) ← splitLast path
    let r ← expect? '=' (skipSpaces r)
    let (v, r) ← value? (2 * cs.length + 2) depthLimit (skipSpaces r)
    let root ← inTable (assign front last (.value v)) d.path d.root
    return (⟨root, d.path⟩, ← statementEnd? r)

/-- All statements; each takes at least a character. -/
def statements : Nat → Document → List Char → Option Document
  | 0, d, _ => some d
  | fuel + 1, d, cs =>
    match skipLines cs.length cs with
    | [] => some d
    | rest =>
      match statement? d rest with
      | none => none
      | some (d, r) => statements fuel d r

/-- The document in a text; a byte order mark in front is passed over. -/
def document? (s : String) : Option JsonSource :=
  let cs := match s.toList with
    | c :: r => if c.toNat = 0xFEFF then r else c :: r
    | [] => []
  (statements (cs.length + 1) ⟨[], []⟩ cs).map fun d => .object (sourceEntries d.root)

end SmellWatch.Toml
