import SmellWatch.Text.Scan
/-! Shapes of single lines of Go code. -/

namespace SmellWatch.GoSource

open Text

/-- From an opening parenthesis to the next closing one. -/
def parenthesized : Scan :=
  .all [.literal "(", .many (· ≠ ')'), .literal ")"]

/-- The keyword of a function and the receiver of a method. -/
def functionHead : Scan :=
  .all [.literal "func", .blanks1, .optional (.both parenthesized .blanks)]

/-- The name in a function declaration. -/
def functionName? (line : List Char) : Option String :=
  (functionHead line).bind fun r =>
    let name := r.takeWhile isWord
    if name.isEmpty then none else some (String.ofList name)

def isResultType (c : Char) : Bool := isWord c || c = '.' || c = '*' || c = '[' || c = ']'

/-- A function declaration with a name for at least one result. -/
def hasNamedResults (line : List Char) : Bool :=
  Scan.matchesFront
    (.all [functionHead, .word, .blanks, parenthesized, .blanks, .literal "(", .blanks, .word,
      .blanks1, .one isResultType]) line

/-- Something assigned to the blank identifier: the last of several, or all that a
call at the front of the line returns. -/
def ignoresResult (line : List Char) : Bool :=
  Scan.matchesInside
    (.all [.literal ",", .blanks, .literal "_", .blanks, .optional (.literal ":"), .literal "=",
      .blanks, .one fun _ => true]) line ||
  Scan.matchesFront
    (.all [.blanks, .literal "_", .blanks, .literal "=", .blanks,
      .many1 (fun c => isWord c || c = '.'), .literal "("]) line

def isAsciiUpper (c : Char) : Bool := 'A' ≤ c && c ≤ 'Z'

/-- A variable declaration with an exported name. -/
def declaresExportedVar (line : List Char) : Bool :=
  Scan.matchesFront (.all [.literal "var", .blanks1, .one isAsciiUpper]) line

/-- After a name of a list: a blank ends it, a comma goes on with a further name.
`fuel` bounds the names. -/
def namesEnd : Nat → List Char → Bool
  | 0, _ => false
  | fuel + 1, cs =>
    match cs with
    | [] => false
    | c :: r =>
      if isBlank c then true
      else if c = ',' then
        match Scan.both .blanks .word r with
        | none => false
        | some rest => namesEnd fuel rest
      else false

/-- A line of a variable block whose first name is exported. -/
def listsExportedVar (line : List Char) : Bool :=
  match Scan.all [.blanks1, .one isAsciiUpper, .many isWord] line with
  | none => false
  | some rest => namesEnd line.length rest

end SmellWatch.GoSource
