import SmellWatch.Finding
/-! The rules for Go code that need no service, and what they say. -/

namespace SmellWatch.Heuristics

open Decimal

inductive Rule
  | ignoredError
  | emptyInterface
  | panicCall
  | initFunction
  | endlessGoroutine
  | exportedVar
  | deepNesting
  | longFunction
  | nakedReturn
deriving DecidableEq, Repr

namespace Rule

def code : Rule → String
  | ignoredError => "WH001"
  | emptyInterface => "WH002"
  | panicCall => "WH003"
  | initFunction => "WH004"
  | endlessGoroutine => "WH005"
  | exportedVar => "WH006"
  | deepNesting => "WH007"
  | longFunction => "WH008"
  | nakedReturn => "WH009"

def title : Rule → String
  | ignoredError => "Ignored error"
  | emptyInterface => "Empty interface parameter"
  | panicCall => "Panic call"
  | initFunction => "init function"
  | endlessGoroutine => "Goroutine loop without exit"
  | exportedVar => "Mutable exported variable"
  | deepNesting => "Deep nesting"
  | longFunction => "Long function"
  | nakedReturn => "Naked return"

def severity : Rule → Severity
  | ignoredError | panicCall | endlessGoroutine => .warning
  | emptyInterface | initFunction | exportedVar | deepNesting | longFunction => .info
  | nakedReturn => .hint

def category : Rule → String
  | ignoredError | panicCall => "errors"
  | emptyInterface | initFunction | exportedVar => "design"
  | endlessGoroutine => "concurrency"
  | deepNesting | longFunction => "complexity"
  | nakedReturn => "style"

/-- Tenths of certainty. -/
def tenths : Rule → Nat
  | ignoredError | panicCall | endlessGoroutine | longFunction => 5
  | emptyInterface | initFunction | exportedVar | deepNesting => 4
  | nakedReturn => 3

def confidence (r : Rule) : Single := .ofQuotient false r.tenths 10

def message : Rule → String
  | ignoredError => "A returned value, likely an error, is assigned to the blank identifier."
  | emptyInterface => "interface\x7b\x7d in a signature discards type information."
  | panicCall => "panic() aborts the goroutine and usually the program."
  | initFunction => "init() runs implicit side effects at import time."
  | endlessGoroutine =>
    "A goroutine runs an unconditional for loop with no return, break or context check."
  | exportedVar => "Exported package-level variables are global mutable state."
  | deepNesting => "Blocks are nested five or more levels deep."
  | longFunction => "Function body exceeds 60 lines."
  | nakedReturn => "A bare return in a function with named results hides what is returned."

def suggestion : Rule → String
  | ignoredError => "Handle the error or document why it is safe to ignore."
  | emptyInterface => "Use a concrete type, a small interface, or a type parameter."
  | panicCall => "Return an error to the caller instead."
  | initFunction => "Prefer explicit initialization called from main or a constructor."
  | endlessGoroutine => "Select on ctx.Done() or a quit channel so the goroutine can stop."
  | exportedVar => "Unexport it and provide accessors, or make it a constant."
  | deepNesting => "Use early returns or extract helper functions."
  | longFunction => "Split it into smaller functions with a single responsibility."
  | nakedReturn => "Return the values explicitly."

/-- The rule's finding on a line, with its own message unless another one is given. The
number of a line has no bound here; as a word of 32 bits it is the same in texts of less than
`2 ^ 32 - 1` lines, where also the number after it is one. -/
def at_ (r : Rule) (line : Nat) (text : Option String := none) : Finding :=
  { id := s!"{r.code}:{line + 1}"
    title := r.title
    severity := r.severity
    message := text.getD r.message
    suggestion := r.suggestion
    category := r.category
    confidence := r.confidence.clampUnit
    range := some (.line line) }

end Rule

end SmellWatch.Heuristics
