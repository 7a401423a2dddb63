/-! Variables of the environment, and texts that refer to them.

A reference is a name in braces after a dollar sign. It stands for the value of the
variable, or for nothing if there is no such variable; the value itself is not read
again. A reference without its closing brace stays as it is.

* `expand_plain`: a text without references is unchanged. -/

namespace SmellWatch

/-- The variables and their values. -/
structure Environment where
  values : List (String × String)
deriving DecidableEq, Repr

namespace Environment

def get? (env : Environment) (name : String) : Option String := env.values.lookup name

/-- What a reference to `name` stands for. No variable has an empty name. -/
def value (env : Environment) (name : String) : String :=
  if name = "" then "" else (env.get? name).getD ""

def reference (env : Environment) (name : List Char) : List Char :=
  (env.value (String.ofList name)).toList

/-- The expansion of the rest of a text. Inside a reference, `name` holds what was
read of it, backwards. -/
def expandFrom (env : Environment) : Option (List Char) → List Char → List Char
  | none, [] => []
  | none, [c] => [c]
  | none, c :: d :: r =>
    if c = '$' ∧ d = '{' then expandFrom env (some []) r
    else c :: expandFrom env none (d :: r)
  | some name, [] => '$' :: '{' :: name.reverse
  | some name, c :: r =>
    if c = '}' then env.reference name.reverse ++ expandFrom env none r
    else expandFrom env (some (c :: name)) r

def expand (env : Environment) (s : String) : String :=
  String.ofList (env.expandFrom none s.toList)

/-- The names in the references of a text; `name` is as in `expandFrom`. -/
def referencesFrom : Option (List Char) → List Char → List String
  | none, [] => []
  | none, [_] => []
  | none, c :: d :: r =>
    if c = '$' ∧ d = '{' then referencesFrom (some []) r else referencesFrom none (d :: r)
  | some _, [] => []
  | some name, c :: r =>
    if c = '}' then String.ofList name.reverse :: referencesFrom none r
    else referencesFrom (some (c :: name)) r

/-- The names of the variables that a text refers to. -/
def references (s : String) : List String := referencesFrom none s.toList

/-! ## Lemmas -/

theorem expandFrom_plain (env : Environment) (cs : List Char) (h : '$' ∉ cs) :
    env.expandFrom none cs = cs := by
  induction cs with
  | nil => rfl
  | cons c r ih =>
    cases r with
    | nil => rfl
    | cons d t =>
      have hc : c ≠ '$' := fun e => h (by simp [e])
      rw [expandFrom, if_neg (fun hh => hc hh.1), ih (fun hm => h (List.mem_cons_of_mem _ hm))]

theorem expand_plain (env : Environment) (s : String) (h : '$' ∉ s.toList) : env.expand s = s := by
  rw [expand, expandFrom_plain env s.toList h, String.ofList_toList]

end Environment

end SmellWatch
