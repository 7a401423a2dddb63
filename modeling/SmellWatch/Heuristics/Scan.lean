import SmellWatch.Document
import SmellWatch.GoSource.Patterns
import SmellWatch.GoSource.Stripped
import SmellWatch.Heuristics.Rule
import SmellWatch.Text.Lines
/-! Findings that need no service.

The scanner reads the stripped lines of Go code one after the other and keeps the
depth of braces, whether it is in a block of variables, the function that is open at
the top level, and the goroutines that are open, innermost first. Code in another
language yields nothing. -/

namespace SmellWatch.Heuristics

open GoSource

/-- More lines than this in a function are too many. -/
def longestFunction : Nat := 60

/-- This many open braces are too many. -/
def deepestNesting : Nat := 5

/-- The function that is open at the top level. -/
structure OpenFunction where
  name : String
  start : Nat
  namedResults : Bool
  nestingReported : Bool
deriving DecidableEq, Repr

/-- An open goroutine: it closes when the depth is `depth` again. -/
structure Goroutine where
  depth : Nat
  loopLine : Option Nat
  hasExit : Bool
deriving DecidableEq, Repr

/-- What is known after the lines so far; `findings` are in the order of discovery. -/
structure State where
  depth : Nat
  inVarBlock : Bool
  function : Option OpenFunction
  goroutines : List Goroutine
  findings : List Finding
deriving DecidableEq, Repr

namespace State

def start : State := ⟨0, false, none, [], []⟩

def report (s : State) (r : Rule) (line : Nat) : State :=
  { s with findings := s.findings ++ [r.at_ line] }

def reportIf (s : State) (condition : Bool) (r : Rule) (line : Nat) : State :=
  if condition then s.report r line else s

end State

/-- The depth of braces after a stripped line. -/
def depthAfter (depth : Nat) (code : List Char) : Nat :=
  code.foldl (fun d c => if c = '{' then d + 1 else if c = '}' then d - 1 else d) depth

/-- Variables of the package. -/
def scanVariables (line : Nat) (code trimmed : List Char) (s : State) : State :=
  if Text.startsWith "var (" trimmed then { s with inVarBlock := true }
  else if s.inVarBlock && Text.startsWith ")" trimmed then { s with inVarBlock := false }
  else
    s.reportIf ((s.inVarBlock && listsExportedVar code) || declaresExportedVar trimmed)
      .exportedVar line

/-- The head of a function, which opens if the line ends in a brace. -/
def scanFunctionHead (line : Nat) (trimmed : List Char) (s : State) : State :=
  match functionName? trimmed with
  | none => s
  | some name =>
    let s := s.reportIf (name = "init" && Text.contains "init()" trimmed) .initFunction line
    let s := s.reportIf (Text.contains "interface\x7b\x7d" trimmed) .emptyInterface line
    if trimmed.getLast? = some '{' then
      { s with function := some ⟨name, line, hasNamedResults trimmed, false⟩ }
    else s

/-- What can be seen on any line. -/
def scanStatements (line : Nat) (code trimmed : List Char) (s : State) : State :=
  let s := s.reportIf (ignoresResult code) .ignoredError line
  let s := s.reportIf (Text.contains "panic(" trimmed) .panicCall line
  s.reportIf (trimmed = "return".toList && s.function.any (·.namedResults)) .nakedReturn line

def isExit (trimmed : List Char) : Bool :=
  Text.startsWith "return" trimmed || Text.startsWith "break" trimmed ||
    Text.contains ".Done()" trimmed

/-- A line seen by the innermost goroutine. -/
def Goroutine.see (line : Nat) (trimmed : List Char) (g : Goroutine) : Goroutine :=
  { g with
    loopLine :=
      if trimmed = "for \x7b".toList && g.loopLine.isNone then some line else g.loopLine
    hasExit := g.hasExit || isExit trimmed }

/-- Goroutines that the line opens, and what it tells the innermost one. -/
def scanGoroutines (line : Nat) (trimmed : List Char) (s : State) : State :=
  let opened :=
    if Text.startsWith "go func" trimmed then ⟨s.depth, none, false⟩ :: s.goroutines
    else s.goroutines
  match opened with
  | [] => { s with goroutines := [] }
  | g :: r => { s with goroutines := g.see line trimmed :: r }

/-- Nesting that the line makes too deep, once for each function. -/
def scanNesting (line : Nat) (s : State) : State :=
  match s.function with
  | some f =>
    if deepestNesting ≤ s.depth && !f.nestingReported then
      { s.report .deepNesting line with function := some { f with nestingReported := true } }
    else s
  | none => s

/-- Goroutines that the line closes, innermost first. -/
def closeGoroutines (depth : Nat) : List Goroutine → List Finding × List Goroutine
  | [] => ([], [])
  | g :: r =>
    if g.depth < depth then ([], g :: r)
    else
      let (fs, left) := closeGoroutines depth r
      match g.loopLine with
      | some line => (if g.hasExit then fs else Rule.endlessGoroutine.at_ line :: fs, left)
      | none => (fs, left)

def scanClosedGoroutines (s : State) : State :=
  let (fs, left) := closeGoroutines s.depth s.goroutines
  { s with goroutines := left, findings := s.findings ++ fs }

/-- What is said of a function that is too long. -/
def longMessage (name : String) (count : Nat) : String :=
  s!"Function {name} has {count} lines; keep functions under {longestFunction}."

/-- The function that the line closes. -/
def scanFunctionEnd (line : Nat) (s : State) : State :=
  match s.function with
  | some f =>
    if s.depth = 0 then
      let count := line - f.start - 1
      let s := { s with function := none }
      if longestFunction < count then
        { s with
          findings := s.findings ++ [Rule.longFunction.at_ f.start (longMessage f.name count)] }
      else s
    else s
  | none => s

/-- One stripped line. -/
def scanLine (s : State) (line : Nat) (code : List Char) : State :=
  let trimmed := Text.trimChars code
  let s :=
    if s.depth = 0 then scanFunctionHead line trimmed (scanVariables line code trimmed s) else s
  let s := scanStatements line code trimmed s
  let s := scanGoroutines line trimmed s
  let s := { s with depth := depthAfter s.depth code }
  scanFunctionEnd line (scanClosedGoroutines (scanNesting line s))

/-- The stripped lines from number `line` on. -/
def scanLines (s : State) (line : Nat) : List (List Char) → State
  | [] => s
  | code :: r => scanLines (scanLine s line code) (line + 1) r

/-- The line on which a finding starts. -/
def startLine (f : Finding) : Nat :=
  match f.range with
  | none => 0
  | some r => r.start.line

/-- All findings in Go code, by their lines; on one line in the order of discovery. -/
def scanGo (content : String) : List Finding :=
  let ls := stripLines false (Text.charLines content.toList)
  (scanLines .start 0 ls).findings.mergeSort fun a b => startLine a ≤ startLine b

def scan (document : DocumentId) (content : String) : List Finding :=
  if languageOf document.name = "go" then scanGo content else []

end SmellWatch.Heuristics
