import SmellWatch.Text.Blank
/-! How serious a finding is.

* `ofLabel?_label`: a label reads back as its severity. -/

namespace SmellWatch

/-- From the least to the most serious. -/
inductive Severity
  | hint
  | info
  | warning
  | error
deriving DecidableEq, Repr

namespace Severity

def rank : Severity → Nat
  | hint => 0
  | info => 1
  | warning => 2
  | error => 3

instance : Ord Severity := ⟨fun a b => compare a.rank b.rank⟩

instance : LE Severity := ⟨fun a b => a.rank ≤ b.rank⟩

instance (a b : Severity) : Decidable (a ≤ b) := inferInstanceAs (Decidable (a.rank ≤ b.rank))

def label : Severity → String
  | error => "error"
  | warning => "warning"
  | info => "info"
  | hint => "hint"

/-- The severity with exactly this label. -/
def ofLabel? (s : String) : Option Severity :=
  if s = "error" then some error
  else if s = "warning" then some warning
  else if s = "info" then some info
  else if s = "hint" then some hint
  else none

/-- The severity that a model's word for it means: labels and their common
synonyms, in any case, with blanks around them. -/
def parse? (raw : String) : Option Severity :=
  let word := Text.asciiLower (Text.trim raw)
  if word = "error" ∨ word = "critical" ∨ word = "high" then some error
  else if word = "warning" ∨ word = "warn" ∨ word = "medium" then some warning
  else if word = "info" ∨ word = "information" ∨ word = "low" then some info
  else if word = "hint" ∨ word = "note" then some hint
  else none

def isError (s : Severity) : Bool := s = error

/-- The number that editors use, one for an error. -/
def editorCode : Severity → Nat
  | error => 1
  | warning => 2
  | info => 3
  | hint => 4

theorem ofLabel?_label (s : Severity) : ofLabel? s.label = some s := by
  cases s <;> decide

end Severity

end SmellWatch
