import SmellWatch.Glob.Glob
import SmellWatch.Text.Blank
import SmellWatch.Text.Lines
/-! Rules about files to skip, one a line.

A line is a glob. `!` in front turns it round: what it matches is kept. A slash at the
end restricts it to directories. A glob without any other slash matches at every depth;
a slash in front only says that there is one. Lines with `#` in front and empty lines
say nothing; a backslash takes the meaning off the first character. The last rule that
matches decides.

* `verdict?_append`: rules that come later win. -/

namespace SmellWatch

inductive Verdict
  | skip
  | keep
deriving DecidableEq, Repr

structure IgnoreRule where
  verdict : Verdict
  directoriesOnly : Bool
  pattern : Glob.BytePattern
deriving DecidableEq, Repr

namespace IgnoreRule

/-! ## Lines -/

/-- A line without blank characters at its end, unless a backslash stands before a
space there. -/
def trimmed (line : List Char) : List Char :=
  if ['\\', ' '].isSuffixOf line then line else Text.dropBlankEnd line

/-- A line without the slash that restricts it to directories, and whether there was
one. -/
def restricted (text : List Char) : Bool × List Char :=
  match text.reverse with
  | '/' :: '\\' :: r => (true, r.reverse)
  | '/' :: r => (true, r.reverse)
  | _ => (false, text)

/-- The glob for paths from the directory of the rules on. -/
def globOf (anchored : Bool) (text : List Char) : String :=
  let text := String.ofList text
  let deep := !anchored && !text.contains '/' && text != "**"
  let glob := if deep then "**/" ++ text else text
  if glob.endsWith "/**" then glob ++ "/*" else glob

/-- The rule for a text after its marks. -/
def ofMarked (verdict : Verdict) (anchored : Bool) (text : List Char) :
    Except Glob.SyntaxFault IgnoreRule :=
  let (directoriesOnly, text) := restricted text
  (Glob.tokens true (globOf anchored text)).map fun ts =>
    { verdict, directoriesOnly, pattern := Glob.pattern false ts }

/-- The rule for a text after its exclamation mark. -/
def ofText (verdict : Verdict) : List Char → Except Glob.SyntaxFault IgnoreRule
  | '/' :: r => ofMarked verdict true r
  | text => ofMarked verdict false text

/-- The rule in a line, if it holds one. -/
def ofLine? (line : List Char) : Option (Except Glob.SyntaxFault IgnoreRule) :=
  if line.head? = some '#' then none
  else
    match trimmed line with
    | [] => none
    | '\\' :: '!' :: r => some (ofMarked .skip false ('!' :: r))
    | '\\' :: '#' :: r => some (ofMarked .skip false ('#' :: r))
    | '!' :: r => some (ofText .keep r)
    | text => some (ofText .skip text)

/-- Whether the rule is about a path, given from its directory on. -/
def applies (r : IgnoreRule) (path : List UInt8) (isDirectory : Bool) : Bool :=
  (isDirectory || !r.directoriesOnly) && r.pattern.isMatch path

end IgnoreRule

/-! ## Files of rules -/

structure IgnoreList where
  rules : List IgnoreRule
  /-- Some line is no glob. -/
  faulty : Bool
deriving DecidableEq, Repr

namespace IgnoreList

def empty : IgnoreList := ⟨[], false⟩

/-- The bytes line by line, each with its line feed. -/
def byteLines : List UInt8 → List (List UInt8)
  | [] => []
  | b :: r =>
    match byteLines r with
    | [] => [[b]]
    | l :: ls => if b = 0x0A then [b] :: l :: ls else (b :: l) :: ls

/-- The text up to the first line that is not UTF-8. -/
def readable (bytes : List UInt8) : List Char :=
  (((byteLines bytes).map Text.decode?).takeWhile Option.isSome).flatMap fun
    | some s => s.toList
    | none => []

def byteOrderMark : Char := Char.ofNat 0xFEFF

/-- The rules in a file. Lines that are no globs are passed over. -/
def ofBytes (bytes : List UInt8) : IgnoreList :=
  let lines := Text.charLines ((readable bytes).dropWhile (· = byteOrderMark))
  let read := lines.filterMap IgnoreRule.ofLine?
  ⟨read.filterMap (·.toOption), read.any fun r => !r.toOption.isSome⟩

/-- What the rules say about a path, given from their directory on. -/
def verdict? (l : IgnoreList) (path : List UInt8) (isDirectory : Bool) : Option Verdict :=
  (l.rules.reverse.find? (·.applies path isDirectory)).map (·.verdict)

theorem verdict?_append (rs ss : List IgnoreRule) (a b : Bool) (path : List UInt8)
    (isDirectory : Bool) :
    (IgnoreList.mk (rs ++ ss) a).verdict? path isDirectory =
      ((IgnoreList.mk ss b).verdict? path isDirectory).or
        ((IgnoreList.mk rs b).verdict? path isDirectory) := by
  simp only [verdict?, List.reverse_append, List.find?_append]
  cases ss.reverse.find? (·.applies path isDirectory) <;> simp

end IgnoreList

end SmellWatch
