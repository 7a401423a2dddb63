/-! Blank characters and trimming.

A character is blank when Unicode gives it the property White_Space. `trim`
takes blank characters off both ends and keeps the rest as it is.

* `trimChars_eq_self`: a text with no blank at either end is its own trimmed form.
* `trimChars_trimChars`: trimming twice is trimming once. -/

namespace SmellWatch.Text

/-- Unicode White_Space. -/
def isBlank (c : Char) : Bool :=
  let n := c.toNat
  (9 ≤ n && n ≤ 13) || n == 0x20 || n == 0x85 || n == 0xA0 || n == 0x1680 ||
    (0x2000 ≤ n && n ≤ 0x200A) || n == 0x2028 || n == 0x2029 || n == 0x202F ||
    n == 0x205F || n == 0x3000

/-! ## Trimming lists of characters -/

def dropBlank (cs : List Char) : List Char := cs.dropWhile isBlank

def dropBlankEnd (cs : List Char) : List Char := (dropBlank cs.reverse).reverse

def trimChars (cs : List Char) : List Char := dropBlankEnd (dropBlank cs)

/-! ## Trimming texts -/

def trim (s : String) : String := String.ofList (trimChars s.toList)

/-- The trimmed text, unless nothing is left of it. -/
def nonBlank? (s : String) : Option String :=
  let t := trim s
  if t.isEmpty then none else some t

/-- ASCII letters in lower case; every other character as it is. -/
def asciiLower (s : String) : String := s.map Char.toLower

/-- Equality up to the case of ASCII letters. -/
def eqIgnoringAsciiCase (s t : String) : Bool := asciiLower s == asciiLower t

/-! ## Lemmas -/

/-- No blank character stands at the front. -/
def StartsInked (cs : List Char) : Prop := ∀ c r, cs = c :: r → isBlank c = false

theorem startsInked_dropBlank (cs : List Char) : StartsInked (dropBlank cs) := by
  intro c r h
  induction cs with
  | nil => simp [dropBlank] at h
  | cons d t ih =>
    simp only [dropBlank, List.dropWhile_cons] at h
    split at h
    · exact ih h
    · cases h; simpa using ‹¬ isBlank c = true›

theorem dropBlank_eq_self {cs : List Char} (h : StartsInked cs) : dropBlank cs = cs := by
  cases cs with
  | nil => rfl
  | cons c r => simp [dropBlank, h c r rfl]

theorem trimChars_eq_self {cs : List Char} (h : StartsInked cs) (h' : StartsInked cs.reverse) :
    trimChars cs = cs := by
  rw [trimChars, dropBlankEnd, dropBlank_eq_self h, dropBlank_eq_self h', List.reverse_reverse]

/-- What follows a front that is not blank does not matter to the front. -/
theorem startsInked_of_prefix {cs ds : List Char} (hp : ds <+: cs) (h : StartsInked cs) :
    StartsInked ds := by
  intro c r e
  obtain ⟨t, rfl⟩ := hp
  exact h c (r ++ t) (by simp [e])

theorem startsInked_trimChars (cs : List Char) : StartsInked (trimChars cs) := by
  refine startsInked_of_prefix ?_ (startsInked_dropBlank cs)
  rw [trimChars, dropBlankEnd, dropBlank, ← List.reverse_suffix, List.reverse_reverse]
  exact List.dropWhile_suffix _

theorem trimChars_trimChars (cs : List Char) : trimChars (trimChars cs) = trimChars cs := by
  refine trimChars_eq_self (startsInked_trimChars cs) ?_
  rw [trimChars, dropBlankEnd, List.reverse_reverse]
  exact startsInked_dropBlank _

end SmellWatch.Text
