import SmellWatch.Severity
import SmellWatch.Decimal.Binary
/-! Findings: what is wrong, where, and how sure one is of it.

Lines and columns count from zero and fit in 32 bits; a range does not contain its
end. `Finding.withConfidence` keeps the confidence in the unit interval. -/

namespace SmellWatch

open Decimal

/-- A place in a text, counted from zero. -/
structure Position where
  line : Nat
  column : Nat
deriving DecidableEq, Repr

namespace Position

/-- The order of places in a text. -/
def before (p q : Position) : Bool :=
  p.line < q.line || (p.line == q.line && p.column < q.column)

end Position

/-- From `start` up to, and without, `stop`. -/
structure SourceRange where
  start : Position
  stop : Position
deriving DecidableEq, Repr

namespace SourceRange

/-- All of one line. -/
def line (n : Nat) : SourceRange := ⟨⟨n, 0⟩, ⟨n + 1, 0⟩⟩

end SourceRange

/-- One observation about a file. -/
structure Finding where
  id : String
  title : String
  severity : Severity
  message : String
  suggestion : String := ""
  category : String := ""
  confidence : Single := 1
  range : Option SourceRange := none
deriving DecidableEq, Repr

namespace Finding

/-- A finding that is certain, belongs to no category, and stands nowhere. -/
def basic (id title : String) (severity : Severity) (message : String) : Finding :=
  { id, title, severity, message }

def withSuggestion (f : Finding) (s : String) : Finding := { f with suggestion := s }

def withCategory (f : Finding) (s : String) : Finding := { f with category := s }

/-- The confidence, moved into the unit interval. -/
def withConfidence (f : Finding) (c : Single) : Finding := { f with confidence := c.clampUnit }

def withRange (f : Finding) (r : SourceRange) : Finding := { f with range := some r }

/-- Where the finding starts, for a reader who counts from one. -/
def place (f : Finding) : Nat × Nat :=
  match f.range with
  | none => (1, 1)
  | some r => (r.start.line + 1, r.start.column + 1)

/-- One line for a reader: place, severity, id and title. -/
def display (f : Finding) (path : String) : String :=
  let (line, column) := f.place
  s!"{path}:{line}:{column}: {f.severity.label} [{f.id}] {f.title}"

end Finding

end SmellWatch
