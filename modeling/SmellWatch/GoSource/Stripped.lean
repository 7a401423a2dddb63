/-! Lines of Go code without the contents of literals and comments.

A literal keeps its quotes only; a comment leaves nothing. A literal that is still
open at the end of its line ends there; a block comment goes on with the next
line. So braces and keywords inside literals and comments are out of sight for
everything that reads stripped lines.

* `length_stripLines`: every line stays a line. -/

namespace SmellWatch.GoSource

/-- Where a character of a line stands. -/
inductive Mode
  | code
  | literal (quote : Char)
  | comment
deriving DecidableEq, Repr

def isQuote (c : Char) : Bool := c = '"' || c = '\'' || c.toNat = 0x60

/-- A quote between backquotes is raw: no backslash escapes it. -/
def isRaw (quote : Char) : Bool := quote.toNat = 0x60

/-- What is left of the rest of a line, and the mode at its end. -/
def strip : Mode → List Char → List Char × Mode
  | m, [] => ([], m)
  | .comment, [_] => ([], .comment)
  | .comment, c :: d :: r =>
    if c = '*' ∧ d = '/' then strip .code r else strip .comment (d :: r)
  | .literal q, [c] => if c = q then ([c], .code) else ([], .literal q)
  | .literal q, c :: d :: r =>
    if c = '\\' ∧ !isRaw q then strip (.literal q) r
    else if c = q then
      let (out, m) := strip .code (d :: r)
      (c :: out, m)
    else strip (.literal q) (d :: r)
  | .code, [c] => ([c], if isQuote c then .literal c else .code)
  | .code, c :: d :: r =>
    if c = '/' ∧ d = '/' then ([], .code)
    else if c = '/' ∧ d = '*' then strip .comment r
    else
      let (out, m) := strip (if isQuote c then .literal c else .code) (d :: r)
      (c :: out, m)

/-- A line without literals and comments, and whether a comment goes on after it;
`inComment` says whether one was open before it. -/
def stripLine (inComment : Bool) (line : List Char) : List Char × Bool :=
  let (out, m) := strip (if inComment then .comment else .code) line
  (out, m = .comment)

/-- All lines stripped, in their order. -/
def stripLines (inComment : Bool) : List (List Char) → List (List Char)
  | [] => []
  | line :: r =>
    let (out, open_) := stripLine inComment line
    out :: stripLines open_ r

/-! ## Lemmas -/

theorem length_stripLines (inComment : Bool) (ls : List (List Char)) :
    (stripLines inComment ls).length = ls.length := by
  induction ls generalizing inComment with
  | nil => rfl
  | cons l r ih => simp [stripLines, ih]

end SmellWatch.GoSource
