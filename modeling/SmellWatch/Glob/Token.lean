/-! Globs as written: their tokens.

`?` stands for one character, `*` for any number of them, brackets for one of some,
braces for one of some globs, and `**` between slashes for any number of whole
components. A backslash takes the next character as it is. -/

namespace SmellWatch.Glob

inductive Token
  | literal (c : Char)
  | any
  | many
  /-- Components in front, or none. -/
  | componentsBefore
  /-- Something below. -/
  | anythingBelow
  /-- Components between two slashes, or one slash. -/
  | componentsBetween
  | oneOf (negated : Bool) (ranges : List (Char × Char))
  | alternatives (globs : List (List Token))
deriving Repr, Inhabited

/-- What is wrong with a glob. -/
inductive SyntaxFault
  | unclosedClass
  | invalidRange (first last : Char)
  | unopenedAlternatives
  | unclosedAlternatives
  | danglingEscape
deriving DecidableEq, Repr

namespace SyntaxFault

def message : SyntaxFault → String
  | unclosedClass => "unclosed character class; missing ']'"
  | invalidRange first last => s!"invalid range; '{first}' > '{last}'"
  | unopenedAlternatives =>
    "unopened alternate group; missing '\x7b' (maybe escape '\x7d' with '[\x7d]'?)"
  | unclosedAlternatives =>
    "unclosed alternate group; missing '\x7d' (maybe escape '\x7b' with '[\x7b]'?)"
  | danglingEscape => "dangling '\\'"

end SyntaxFault

/-- A glob half read. `current` holds the tokens of the innermost branch backwards;
every open brace keeps what stood before it and its finished branches. -/
structure Reading where
  current : List Token
  opened : List (List Token × List (List Token))

namespace Reading

def start : Reading := ⟨[], []⟩

def push (s : Reading) (t : Token) : Reading := { s with current := t :: s.current }

def pushAll (s : Reading) (ts : List Token) : Reading := ts.foldl push s

def inBraces (s : Reading) : Bool := !s.opened.isEmpty

def openBrace (s : Reading) : Reading := ⟨[], (s.current, []) :: s.opened⟩

/-- A comma parts branches inside braces only. -/
def comma (s : Reading) : Reading :=
  match s.opened with
  | [] => s.push (.literal ',')
  | (before, done) :: r => ⟨[], (before, s.current.reverse :: done) :: r⟩

def closeBrace (s : Reading) : Except SyntaxFault Reading :=
  match s.opened with
  | [] => .error .unopenedAlternatives
  | (before, done) :: r =>
    .ok ⟨.alternatives (s.current.reverse :: done).reverse :: before, r⟩

/-- `**` after other tokens: it takes the place of the slash before it, unless it
follows another one. -/
def spread (s : Reading) (t : Token) : Reading :=
  match s.current with
  | .componentsBefore :: _ => s
  | .anythingBelow :: _ => s
  | _ :: r => { s with current := t :: r }
  | [] => s.push t

/-- Two stars in a row. `before` is the character in front of them; what is given
back with the state is the last character taken and the rest. -/
def doubleStar (s : Reading) (before : Option Char) (rest : List Char) :
    Reading × Option Char × List Char :=
  let plain := (s.pushAll [.many, .many], some '*', rest)
  if s.current.isEmpty then
    match rest with
    | [] => (s.push .componentsBefore, some '*', [])
    | c :: r => if c = '/' then (s.push .componentsBefore, some '/', r) else plain
  else if before ≠ some '/' ∧ ¬ (s.inBraces ∧ (before = some ',' ∨ before = some '{')) then plain
  else
    match rest with
    | [] => (s.spread .anythingBelow, some '*', [])
    | c :: r =>
      if c = '/' then (s.spread .componentsBetween, some '/', r)
      else if (c = ',' ∨ c = '}') ∧ s.inBraces then (s.spread .anythingBelow, some '*', rest)
      else plain

end Reading

/-! ## Classes -/

/-- The last range with another end. -/
def extendRange (ranges : List (Char × Char)) (last : Char) :
    Except SyntaxFault (List (Char × Char)) :=
  match ranges with
  | [] => .ok []
  | (first, _) :: r =>
    if last < first then .error (.invalidRange first last) else .ok ((first, last) :: r)

/-- A class after its bracket and its negation; `ranges` is held backwards,
`first` says that nothing was read yet, `open_` that a range awaits its end. -/
def classRanges (ranges : List (Char × Char)) (first open_ : Bool) :
    List Char → Except SyntaxFault (List (Char × Char) × List Char)
  | [] => .error .unclosedClass
  | c :: r =>
    if c = ']' ∧ !first then
      .ok ((if open_ then ('-', '-') :: ranges else ranges).reverse, r)
    else if c = '-' ∧ !first ∧ !open_ then classRanges ranges false true r
    else if open_ then do classRanges (← extendRange ranges c) false false r
    else classRanges ((c, c) :: ranges) false false r

/-- A class, given without its opening bracket. -/
def classToken (cs : List Char) : Except SyntaxFault (Token × List Char) := do
  let (negated, r) : Bool × List Char := match cs with
    | '!' :: r => (true, r)
    | '^' :: r => (true, r)
    | _ => (false, cs)
  let (ranges, rest) ← classRanges [] true false r
  return (.oneOf negated ranges, rest)

/-! ## The whole glob -/

/-- What an opening bracket begins: a class, or itself, if it may stand unclosed. -/
def bracket (lenient : Bool) (cs : List Char) : Except SyntaxFault (Token × Char × List Char) :=
  match classToken cs with
  | .ok (t, rest) => .ok (t, ']', rest)
  | .error .unclosedClass =>
    if lenient then .ok (.literal '[', '[', cs) else .error .unclosedClass
  | .error e => .error e

/-- The tokens of a glob from some state on; every step takes a character, so the
length bounds the steps. -/
def readTokens (lenient : Bool) :
    Nat → Reading → Option Char → List Char → Except SyntaxFault Reading
  | _, s, _, [] => .ok s
  | 0, s, _, _ => .ok s
  | fuel + 1, s, before, c :: r =>
    if c = '?' then readTokens lenient fuel (s.push .any) (some c) r
    else if c = '*' then
      match r with
      | '*' :: rest =>
        let (s, last, rest) := s.doubleStar before rest
        readTokens lenient fuel s last rest
      | _ => readTokens lenient fuel (s.push .many) (some c) r
    else if c = '[' then do
      let (t, last, rest) ← bracket lenient r
      readTokens lenient fuel (s.push t) (some last) rest
    else if c = '{' then readTokens lenient fuel s.openBrace (some c) r
    else if c = '}' then do readTokens lenient fuel (← s.closeBrace) (some c) r
    else if c = ',' then readTokens lenient fuel s.comma (some c) r
    else if c = '\\' then
      match r with
      | [] => .error .danglingEscape
      | d :: rest => readTokens lenient fuel (s.push (.literal d)) (some d) rest
    else readTokens lenient fuel (s.push (.literal c)) (some c) r

/-- The tokens of a glob; a lenient reader takes an unclosed bracket as it stands. -/
def tokens (lenient : Bool) (glob : String) : Except SyntaxFault (List Token) := do
  let cs := glob.toList
  let s ← readTokens lenient cs.length .start none cs
  if s.inBraces then .error .unclosedAlternatives else return s.current.reverse

end SmellWatch.Glob
