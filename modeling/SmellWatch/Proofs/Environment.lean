import Mathlib.Data.List.Infix
import SmellWatch.Environment
/-! What texts with references stand for.

A text whose references are all closed is made of pieces: characters that stand for themselves, and
references (`Pieces`).  The expansion goes through them one by one and never comes back to what it
wrote, so the pieces in front of another text are expanded as if it were not there
(`expandFrom_append`), unless the text in front ends in a dollar sign and the other one begins with
the brace.  The laws about texts put together in `expand_composes` are cases of this one. -/

namespace SmellWatch

namespace Environment

variable {env : Environment} {cs r t name held : List Char} {c : Char}

/-! ## Texts by their pieces -/

/-- A reference begins at the front of the text. -/
def Opens (cs : List Char) : Prop := ['$', '{'] <+: cs

/-- Each reference that begins in the text is closed in it. -/
def ClosesAll (cs : List Char) : Prop := ∀ rest, '$' :: '{' :: rest <:+ cs → '}' ∈ rest

/-- A text made of characters and of closed references. -/
inductive Pieces : List Char → Prop
  | nil : Pieces []
  | char {c : Char} {r : List Char} : ¬ Opens (c :: r) → Pieces r → Pieces (c :: r)
  | reference {name r : List Char} :
      '}' ∉ name → Pieces r → Pieces ('$' :: '{' :: (name ++ '}' :: r))

theorem opens_iff : Opens cs ↔ ∃ rest, cs = '$' :: '{' :: rest := by
  constructor
  · rintro ⟨rest, rfl⟩
    exact ⟨rest, rfl⟩
  · rintro ⟨rest, rfl⟩
    exact ⟨rest, rfl⟩

instance : DecidablePred ClosesAll := fun cs =>
  decidable_of_iff (∀ l ∈ cs.tails, l.take 2 = ['$', '{'] → '}' ∈ l.drop 2) (by
    constructor
    · intro h rest hrest
      exact h _ ((List.mem_tails _ _).mpr hrest) rfl
    · intro h l hl hopens
      rw [← List.take_append_drop 2 l, hopens] at hl
      exact h _ ((List.mem_tails _ _).mp hl))

theorem ClosesAll.of_suffix (h : ClosesAll cs) (hr : r <:+ cs) : ClosesAll r :=
  fun rest hrest => h rest (hrest.trans hr)

/-- By induction on the length, as a reference is left behind as a whole. -/
theorem ClosesAll.pieces (h : ClosesAll cs) : Pieces cs := by
  induction hlength : cs.length using Nat.strong_induction_on generalizing cs with
  | _ n ih =>
    subst hlength
    cases cs with
    | nil => exact .nil
    | cons c r =>
      by_cases hopens : Opens (c :: r)
      · obtain ⟨rest, hrest⟩ := opens_iff.mp hopens
        rw [hrest] at h ih ⊢
        obtain ⟨name, behind, rfl, hname⟩ :=
          List.eq_append_cons_of_mem (h rest List.suffix_rfl)
        refine .reference hname (ih behind.length ?_ (h.of_suffix ?_) rfl)
        · simp only [List.length_cons, List.length_append]
          omega
        · exact ⟨'$' :: '{' :: (name ++ ['}']), by simp⟩
      · have hrest := h.of_suffix (List.suffix_cons c r)
        exact .char hopens (ih r.length (Nat.lt_succ_self _) hrest rfl)

theorem not_closesAll_iff :
    ¬ ClosesAll cs ↔ ∃ front rest, cs = front ++ '$' :: '{' :: rest ∧ '}' ∉ rest := by
  constructor
  · intro h
    obtain ⟨rest, hrest⟩ := not_forall.mp h
    obtain ⟨⟨front, hfront⟩, hnot⟩ := Classical.not_imp.mp hrest
    exact ⟨front, rest, hfront.symm, hnot⟩
  · rintro ⟨front, rest, rfl, hnot⟩ h
    exact hnot (h rest (List.suffix_append _ _))

/-- In a text that does not close all its references there is a first one that is not closed. -/
theorem exists_first_unclosed (h : ¬ ClosesAll cs) :
    ∃ front rest, cs = front ++ '$' :: '{' :: rest ∧ ClosesAll front ∧ '}' ∉ rest := by
  obtain ⟨front, rest, rfl, hrest⟩ := not_closesAll_iff.mp h
  clear h
  induction hlength : front.length using Nat.strong_induction_on generalizing front rest with
  | _ n ih =>
    subst hlength
    by_cases hfront : ClosesAll front
    · exact ⟨front, rest, rfl, hfront, hrest⟩
    · -- a reference in front of this one that is not closed there is not closed behind it either
      obtain ⟨before, inner, rfl, hinner⟩ := not_closesAll_iff.mp hfront
      have hlater : '}' ∉ inner ++ '$' :: '{' :: rest := by
        simp [hinner, hrest]
      have hearlier := ih before.length (by simp) before (inner ++ '$' :: '{' :: rest) hlater rfl
      simpa using hearlier

/-! ## Expansion -/

theorem expandFrom_opening (env : Environment) (r : List Char) :
    env.expandFrom none ('$' :: '{' :: r) = env.expandFrom (some []) r := by
  rw [expandFrom, if_pos ⟨rfl, rfl⟩]

theorem expandFrom_char (env : Environment) (h : ¬ Opens (c :: r)) :
    env.expandFrom none (c :: r) = c :: env.expandFrom none r := by
  cases r with
  | nil => rfl
  | cons d r =>
    rw [expandFrom, if_neg]
    rintro ⟨rfl, rfl⟩
    exact h (opens_iff.mpr ⟨r, rfl⟩)

/-- The rest of a reference that is closed. -/
theorem expandFrom_closed (env : Environment) (h : '}' ∉ name) (held r : List Char) :
    env.expandFrom (some held) (name ++ '}' :: r) =
      env.reference (held.reverse ++ name) ++ env.expandFrom none r := by
  induction name generalizing held with
  | nil => rw [List.nil_append, expandFrom, if_pos rfl, List.append_nil]
  | cons c name ih =>
    rw [List.mem_cons, not_or] at h
    rw [List.cons_append, expandFrom, if_neg (Ne.symm h.1), ih h.2, List.reverse_cons,
      List.append_assoc, List.singleton_append]

/-- The rest of a reference that is not closed. -/
theorem expandFrom_unclosed (env : Environment) (h : '}' ∉ t) (held : List Char) :
    env.expandFrom (some held) t = '$' :: '{' :: (held.reverse ++ t) := by
  induction t generalizing held with
  | nil => rw [expandFrom, List.append_nil]
  | cons c t ih =>
    rw [List.mem_cons, not_or] at h
    rw [expandFrom, if_neg (Ne.symm h.1), ih h.2, List.reverse_cons, List.append_assoc,
      List.singleton_append]

/-- Pieces in front of a text are expanded as if it were not there, unless a reference begins where
the two meet. -/
theorem expandFrom_append (env : Environment) (h : Pieces cs)
    (hseam : cs.getLast? = some '$' → t.head? ≠ some '{') :
    env.expandFrom none (cs ++ t) = env.expandFrom none cs ++ env.expandFrom none t := by
  induction h with
  | nil => rw [List.nil_append, expandFrom, List.nil_append]
  | @char c r hopens _ ih =>
    have hstill : ¬ Opens (c :: (r ++ t)) := by
      rw [opens_iff] at hopens ⊢
      rintro ⟨rest, hrest⟩
      cases r with
      | nil =>
        obtain ⟨rfl, rfl⟩ : c = '$' ∧ t = '{' :: rest := by simpa using hrest
        exact hseam rfl rfl
      | cons d r =>
        obtain ⟨rfl, rfl, -⟩ : c = '$' ∧ d = '{' ∧ r ++ t = rest := by simpa using hrest
        exact hopens ⟨r, rfl⟩
    have hrest : r.getLast? = some '$' → t.head? ≠ some '{' := by
      intro hlast
      apply hseam
      rw [List.getLast?_cons, hlast]
      rfl
    rw [List.cons_append, expandFrom_char env hstill, expandFrom_char env hopens, ih hrest,
      List.cons_append]
  | @reference name r hname _ ih =>
    have hrest : r.getLast? = some '$' → t.head? ≠ some '{' := by
      intro hlast
      apply hseam
      simp [List.getLast?_cons, List.getLast?_append, hlast]
    have hjoin : '$' :: '{' :: (name ++ '}' :: r) ++ t =
        '$' :: '{' :: (name ++ '}' :: (r ++ t)) := by
      simp
    rw [hjoin, expandFrom_opening, expandFrom_opening, expandFrom_closed env hname,
      expandFrom_closed env hname, ih hrest, List.append_assoc]

theorem expandFrom_of_not_infix (env : Environment) (h : ¬ ['$', '{'] <:+: cs) :
    env.expandFrom none cs = cs := by
  induction cs with
  | nil => rfl
  | cons c r ih =>
    have hopens : ¬ Opens (c :: r) := fun hopens => h hopens.isInfix
    have hrest : ¬ ['$', '{'] <:+: r := fun hr => h (hr.trans (List.suffix_cons c r).isInfix)
    rw [expandFrom_char env hopens, ih hrest]

theorem toList_expand (env : Environment) (s : String) :
    (env.expand s).toList = env.expandFrom none s.toList := String.toList_ofList

/-- A text that closes all its references and ends in no dollar sign is expanded by itself, whatever
is behind it.  A text in which no reference begins is unchanged.  From the first reference on that
is not closed all is kept, and there is such a reference in a text that does not close all of them.
What stands for a reference is in the result as it is, even if it looks like a reference itself. -/
theorem expand_composes (env : Environment) :
    (∀ s t : String, ClosesAll s.toList → s.toList.getLast? ≠ some '$' →
      env.expand (s ++ t) = env.expand s ++ env.expand t) ∧
    (∀ s : String, ¬ ['$', '{'] <:+: s.toList → env.expand s = s) ∧
    (∀ s t : String, ClosesAll s.toList → '}' ∉ t.toList →
      env.expand (s ++ "$\x7b" ++ t) = env.expand s ++ "$\x7b" ++ t) ∧
    (∀ s : String, ¬ ClosesAll s.toList → ∃ front rest : String,
      s = front ++ "$\x7b" ++ rest ∧ ClosesAll front.toList ∧ '}' ∉ rest.toList) ∧
    ∀ s name t : String, ClosesAll s.toList → '}' ∉ name.toList →
      env.expand (s ++ "$\x7b" ++ name ++ "\x7d" ++ t) =
        env.expand s ++ env.value name ++ env.expand t := by
  refine ⟨fun s t hs hlast => ?_, fun s hs => ?_, fun s t hs ht => ?_, fun s hs => ?_,
    fun s name t hs hname => ?_⟩
  · apply String.toList_inj.mp
    simp only [toList_expand, String.toList_append]
    exact expandFrom_append env hs.pieces fun h => absurd h hlast
  · apply String.toList_inj.mp
    rw [toList_expand, expandFrom_of_not_infix env hs]
  · apply String.toList_inj.mp
    have hseam := expandFrom_append env (t := '$' :: '{' :: t.toList) hs.pieces (by simp)
    rw [expandFrom_opening, expandFrom_unclosed env ht] at hseam
    simpa [toList_expand] using hseam
  · obtain ⟨front, rest, hsplit, hfront, hrest⟩ := exists_first_unclosed hs
    refine ⟨String.ofList front, String.ofList rest, ?_, ?_, ?_⟩
    · apply String.toList_inj.mp
      simpa using hsplit
    · rwa [String.toList_ofList]
    · rwa [String.toList_ofList]
  · apply String.toList_inj.mp
    have hseam := expandFrom_append env (t := '$' :: '{' :: (name.toList ++ '}' :: t.toList))
      hs.pieces (by simp)
    rw [expandFrom_opening, expandFrom_closed env hname] at hseam
    simpa [toList_expand, reference] using hseam

/-- Variables of which one has a value that looks like a reference to the other. -/
def nested : Environment := ⟨[("A", "$\x7bB\x7d"), ("B", "b")]⟩

theorem expand_composes_nested :
    ClosesAll "x$\x7bA\x7d".toList ∧ "x$\x7bA\x7d".toList.getLast? ≠ some '$' ∧
      nested.expand ("x$\x7bA\x7d" ++ "$\x7bB\x7dy") = "x$\x7bB\x7d" ++ "by" ∧
      ¬ ['$', '{'] <:+: "$\x7d\x7b".toList ∧ nested.expand "$\x7d\x7b" = "$\x7d\x7b" ∧
      '}' ∉ "B".toList ∧
      nested.expand ("x$\x7bA\x7d" ++ "$\x7b" ++ "B") = "x$\x7bB\x7d" ++ "$\x7b" ++ "B" ∧
      ¬ ClosesAll "a$\x7bB".toList ∧ (∃ front rest : String, "a$\x7bB" = front ++ "$\x7b" ++ rest) ∧
      nested.expand ("x$\x7bA\x7d" ++ "$\x7b" ++ "B" ++ "\x7d" ++ "$") =
        "x$\x7bB\x7d" ++ "b" ++ "$" := by
  obtain ⟨happend, hplain, hunclosed, hfirst, hreference⟩ := expand_composes nested
  have hcloses : ClosesAll "x$\x7bA\x7d".toList := by decide +kernel
  have hvalue : nested.expand "x$\x7bA\x7d" = "x$\x7bB\x7d" := by decide +kernel
  have hlast : "x$\x7bA\x7d".toList.getLast? ≠ some '$' := by decide +kernel
  have hnone : ¬ ['$', '{'] <:+: "$\x7d\x7b".toList := by decide +kernel
  have hname : '}' ∉ "B".toList := by decide +kernel
  have hopen : ¬ ClosesAll "a$\x7bB".toList := by decide +kernel
  refine ⟨hcloses, hlast, ?_, hnone, hplain _ hnone, hname, ?_, hopen, ?_, ?_⟩
  · rw [happend _ _ hcloses hlast, hvalue]
    decide +kernel
  · rw [hunclosed _ _ hcloses hname, hvalue]
  · obtain ⟨front, rest, hsplit, -⟩ := hfirst _ hopen
    exact ⟨front, rest, hsplit⟩
  · rw [hreference _ _ _ hcloses hname, hvalue]
    decide +kernel

end Environment

end SmellWatch
