import Mathlib.Data.List.TakeWhile
import SmellWatch.Proofs.Json.Quote
import SmellWatch.Text.Blank
/-! Texts taken apart stretch by stretch.

A stretch of a text takes the lexer from one state to another and completes some tokens on the
way (`JsonLexer.Steps`), and what a text is made of is what its stretches are made of
(`jsonTokens_eq_some_iff`, `Steps.append`).  A stretch without brackets and quotation marks does
not open or close anything (`Steps.of_plain`), no string goes on over the end of a line
(`step_newline`), and a text that can be read from outside of a string cannot be read from inside
of one (`Finishes.not_quoted`). -/

namespace SmellWatch

variable {c : Char} {cs ds r w : List Char} {t : JsonToken} {ts us : List JsonToken}

/-! ## Words outside quotes -/

/-- The characters of words and numbers. -/
def IsWordChar (c : Char) : Prop := c.isAlphanum = true ∨ c = '+' ∨ c = '-' ∨ c = '.'

theorem isWordChar_of_isDigit (h : c.isDigit = true) : IsWordChar c := by
  left
  unfold Char.isAlphanum
  rw [h, Bool.or_true]

theorem isWordChar_of_mem_takeWhile (h : c ∈ cs.takeWhile Char.isDigit) : IsWordChar c :=
  isWordChar_of_isDigit (List.mem_takeWhile_imp h)

theorem exponentText?_chars {e : Option (Bool × List Char)} (h : exponentText? cs = some e)
    (hc : c ∈ cs) : IsWordChar c := by
  have hdigits : ∀ (minus : Bool) (ds : List Char),
      (if (ds.isEmpty || !ds.all Char.isDigit) = true then none else some (some (minus, ds))) =
        some e → ∀ x ∈ ds, IsWordChar x := by
    intro minus ds hds x hx
    split at hds
    · cases hds
    · rename_i hall
      simp only [Bool.or_eq_true, Bool.not_eq_true', not_or, Bool.not_eq_false] at hall
      exact isWordChar_of_isDigit (List.all_eq_true.mp hall.2 x hx)
  cases cs with
  | nil => cases hc
  | cons d r =>
    unfold exponentText? at h
    dsimp only at h
    split at h
    · rename_i hletter
      rcases List.mem_cons.mp hc with rfl | hc
      · rcases hletter with rfl | rfl <;> exact .inl (by decide)
      -- the digits are behind a sign, or all of the rest where there is none
      · split at h
        · rcases List.mem_cons.mp hc with rfl | hc
          · exact .inr (.inr (.inl rfl))
          · exact hdigits _ _ h c hc
        · rcases List.mem_cons.mp hc with rfl | hc
          · exact .inr (.inl rfl)
          · exact hdigits _ _ h c hc
        · exact hdigits _ _ h c hc
    · cases h

theorem numberText?_chars {n : NumberText} (h : numberText? cs = some n) (hc : c ∈ cs) :
    IsWordChar c := by
  unfold numberText? at h
  split at h
  rename_i negative r hsign
  dsimp only at h
  have hr : c ∈ r ∨ c = '-' := by
    split at hsign
    · cases hsign
      rcases List.mem_cons.mp hc with rfl | hc
      · exact .inr rfl
      · exact .inl hc
    · cases hsign
      exact .inl hc
  rcases hr with hr | rfl
  · rw [← List.takeWhile_append_dropWhile (p := Char.isDigit) (l := r)] at hr
    rcases List.mem_append.mp hr with hwhole | hrest
    · exact isWordChar_of_mem_takeWhile hwhole
    · split at h
      · cases h
      · split at h
        · rename_i q hpoint
          rw [hpoint] at hrest
          rcases List.mem_cons.mp hrest with rfl | hq
          · exact .inr (.inr (.inr rfl))
          · split at h
            · cases h
            · obtain ⟨e, he, -⟩ := Option.map_eq_some_iff.mp h
              rw [← List.takeWhile_append_dropWhile (p := Char.isDigit) (l := q)] at hq
              rcases List.mem_append.mp hq with hplaces | hexp
              · exact isWordChar_of_mem_takeWhile hplaces
              · exact exponentText?_chars he hexp
        · obtain ⟨e, he, -⟩ := Option.map_eq_some_iff.mp h
          exact exponentText?_chars he hrest
  · exact .inr (.inr (.inl rfl))

/-- A word that is a token has no other characters. -/
theorem bareToken?_chars (h : bareToken? cs = some t) (hc : c ∈ cs) : IsWordChar c := by
  have hletters : ∀ word : List Char, word.all Char.isAlphanum = true → cs = word →
      IsWordChar c := by
    intro word hword hcs
    rw [hcs] at hc
    exact .inl (List.all_eq_true.mp hword c hc)
  unfold bareToken? at h
  split at h
  · rename_i hnull
    exact hletters _ (by decide) hnull
  split at h
  · rename_i htrue
    exact hletters _ (by decide) htrue
  split at h
  · rename_i hfalse
    exact hletters _ (by decide) hfalse
  obtain ⟨n, hn, -⟩ := Option.map_eq_some_iff.mp h
  exact numberText?_chars hn hc

/-- Blanks of any kind are no part of a word. -/
theorem IsWordChar.not_blank (h : IsWordChar c) : Text.isBlank c = false := by
  rcases h with h | rfl | rfl | rfl
  · have hrange : 48 ≤ c.toNat ∧ c.toNat ≤ 57 ∨ 65 ≤ c.toNat ∧ c.toNat ≤ 90 ∨
        97 ≤ c.toNat ∧ c.toNat ≤ 122 := by
      rcases Bool.or_eq_true_iff.mp h with hletter | hdigit
      · rcases Bool.or_eq_true_iff.mp hletter with hupper | hlower
        · exact .inr (.inl (of_decide_eq_true hupper))
        · obtain ⟨hlow, hhigh⟩ := Bool.and_eq_true_iff.mp hlower
          exact .inr (.inr ⟨of_decide_eq_true hlow, of_decide_eq_true hhigh⟩)
      · obtain ⟨hlow, hhigh⟩ := Bool.and_eq_true_iff.mp hdigit
        exact .inl ⟨of_decide_eq_true hlow, of_decide_eq_true hhigh⟩
    unfold Text.isBlank
    simp only [Bool.or_eq_false_iff, Bool.and_eq_false_iff, decide_eq_false_iff_not,
      beq_eq_false_iff_ne]
    omega
  · decide
  · decide
  · decide

theorem not_isWordChar_backslash : ¬ IsWordChar '\\' := by
  rintro (h | h | h | h) <;> exact absurd h (by decide)

/-! ## What tokens open and close -/

namespace JsonToken

/-- By how much a token deepens the nesting. -/
def nesting : JsonToken → Int
  | openArray | openObject => 1
  | closeArray | closeObject => -1
  | comma | colon | null | bool _ | number _ | string _ => 0

/-- By how much tokens deepen the nesting in all. -/
def deepening : List JsonToken → Int
  | [] => 0
  | t :: ts => t.nesting + deepening ts

theorem deepening_append (ts us : List JsonToken) :
    deepening (ts ++ us) = deepening ts + deepening us := by
  induction ts with
  | nil => exact (Int.zero_add _).symm
  | cons t ts ih => rw [List.cons_append, deepening, deepening, ih, Int.add_assoc]

theorem deepening_eq_zero (h : ∀ t ∈ ts, t.nesting = 0) : deepening ts = 0 := by
  induction ts with
  | nil => rfl
  | cons t ts ih =>
    show t.nesting + deepening ts = 0
    rw [h t List.mem_cons_self, ih fun u hu => h u (List.mem_cons_of_mem t hu), Int.add_zero]

end JsonToken

theorem nesting_of_bareToken? (h : bareToken? cs = some t) : t.nesting = 0 := by
  unfold bareToken? at h
  split at h
  · cases h
    rfl
  split at h
  · cases h
    rfl
  split at h
  · cases h
    rfl
  obtain ⟨n, -, rfl⟩ := Option.map_eq_some_iff.mp h
  rfl

namespace JsonLexer

variable {l m e : JsonLexer} {read : List Char}

/-! ## Stretches -/

/-- A stretch of a text takes the lexer from the one state to the other and completes tokens. -/
inductive Steps : JsonLexer → List Char → List JsonToken → JsonLexer → Prop
  | nil {l : JsonLexer} : Steps l [] [] l
  | cons {l m e : JsonLexer} {c : Char} {r : List Char} {ts us : List JsonToken} :
      l.step c = some (m, ts) → Steps m r us e → Steps l (c :: r) (ts ++ us) e

namespace Steps

theorem append (h : Steps l cs ts m) (h' : Steps m ds us e) :
    Steps l (cs ++ ds) (ts ++ us) e := by
  induction h with
  | nil => exact h'
  | cons hstep _ ih =>
    rw [List.append_assoc]
    exact .cons hstep (ih h')

theorem single (h : l.step c = some (m, ts)) : Steps l [c] ts m := by
  have hsteps := cons h nil
  rwa [List.append_nil] at hsteps

/-- A character that completes one token. -/
theorem token (h : l.step c = some (m, [t])) (h' : Steps m r us e) :
    Steps l (c :: r) (t :: us) e := cons h h'

/-- A character that completes no token. -/
theorem silent (h : l.step c = some (m, [])) (h' : Steps m r us e) : Steps l (c :: r) us e :=
  cons h h'

theorem cons_inv (h : Steps l (c :: r) ts e) :
    ∃ m us vs, l.step c = some (m, us) ∧ Steps m r vs e ∧ ts = us ++ vs := by
  cases h with
  | cons hstep hrest => exact ⟨_, _, _, hstep, hrest, rfl⟩

theorem append_inv (h : Steps l (cs ++ ds) ts e) :
    ∃ m us vs, Steps l cs us m ∧ Steps m ds vs e ∧ ts = us ++ vs := by
  induction cs generalizing l ts with
  | nil => exact ⟨l, [], ts, .nil, h, rfl⟩
  | cons c r ih =>
    obtain ⟨m, us, vs, hstep, hrest, rfl⟩ := cons_inv h
    obtain ⟨m', us', vs', hcs, hds, rfl⟩ := ih hrest
    exact ⟨m', us ++ us', vs', .cons hstep hcs, hds, (List.append_assoc ..).symm⟩

theorem det {f : JsonLexer} (h : Steps l cs ts e) (h' : Steps l cs us f) : ts = us ∧ e = f := by
  induction h generalizing us with
  | nil =>
    cases h'
    exact ⟨rfl, rfl⟩
  | cons hstep _ ih =>
    obtain ⟨m, vs, ws, hm, hrest, rfl⟩ := cons_inv h'
    rw [hstep] at hm
    cases hm
    obtain ⟨rfl, rfl⟩ := ih hrest
    exact ⟨rfl, rfl⟩

end Steps

/-- The lexer gets through the text, and the text may end there. -/
def Finishes (l : JsonLexer) (cs : List Char) : Prop :=
  ∃ e ts us, Steps l cs ts e ∧ e.finish = some us

theorem Finishes.cons_inv (h : Finishes l (c :: r)) :
    ∃ m us, l.step c = some (m, us) ∧ Finishes m r := by
  obtain ⟨e, ts, us, hsteps, hfinish⟩ := h
  obtain ⟨m, vs, ws, hstep, hrest, -⟩ := hsteps.cons_inv
  exact ⟨m, vs, hstep, e, ws, us, hrest, hfinish⟩

theorem run_eq_some_iff {done : List JsonToken} :
    run l done cs = some ts ↔
      ∃ e us vs, Steps l cs us e ∧ e.finish = some vs ∧ ts = done.reverse ++ (us ++ vs) := by
  induction cs generalizing l done with
  | nil =>
    rw [run, Option.map_eq_some_iff]
    constructor
    · rintro ⟨vs, hvs, rfl⟩
      exact ⟨l, [], vs, .nil, hvs, rfl⟩
    · rintro ⟨e, us, vs, hsteps, hvs, rfl⟩
      cases hsteps
      exact ⟨vs, hvs, rfl⟩
  | cons c r ih =>
    rw [run]
    cases hstep : l.step c with
    | none =>
      constructor
      · rintro ⟨⟩
      · rintro ⟨e, us, vs, hsteps, -, -⟩
        obtain ⟨m, us', vs', hm, -, -⟩ := hsteps.cons_inv
        rw [hstep] at hm
        cases hm
    | some p =>
      obtain ⟨m, ws⟩ := p
      show run m (ws.reverse ++ done) r = some ts ↔ _
      rw [ih, List.reverse_append, List.reverse_reverse]
      constructor
      · rintro ⟨e, us, vs, hsteps, hvs, rfl⟩
        exact ⟨e, ws ++ us, vs, .cons hstep hsteps, hvs, by simp only [List.append_assoc]⟩
      · rintro ⟨e, us, vs, hsteps, hvs, rfl⟩
        obtain ⟨m', us', vs', hm, hrest, rfl⟩ := hsteps.cons_inv
        rw [hstep] at hm
        cases hm
        exact ⟨e, vs', vs, hrest, hvs, by simp only [List.append_assoc]⟩

end JsonLexer

open JsonLexer

theorem jsonTokens_eq_some_iff :
    jsonTokens cs = some ts ↔
      ∃ e us vs, Steps .between cs us e ∧ e.finish = some vs ∧ ts = us ++ vs :=
  run_eq_some_iff

namespace JsonLexer

variable {l m e : JsonLexer} {read : List Char}

/-- A text that starts with a token, taken apart up to its end. -/
theorem Steps.of_first? (h : first? l cs = some (t, r)) :
    ∃ ds, cs = ds ++ r ∧ Steps l ds [t] .between := by
  induction cs generalizing l with
  | nil => cases h
  | cons c cs ih =>
    rw [first?] at h
    split at h
    · rename_i m hstep
      obtain ⟨ds, rfl, hds⟩ := ih h
      exact ⟨c :: ds, rfl, .cons hstep hds⟩
    · rename_i u hstep
      cases h
      exact ⟨[c], rfl, .single hstep⟩
    · cases h

/-- A quotation is one token. -/
theorem steps_quote (s : String) :
    Steps .between (Json.quote s).toList [.string (some s)] .between := by
  have hfirst := first?_quote s []
  obtain ⟨ds, hds, hsteps⟩ := Steps.of_first? hfirst
  rw [List.append_nil, List.append_nil] at hds
  rwa [hds]

/-! ## Words -/

/-- What is read of a word stays in it up to its end, where it must be a token. -/
theorem Finishes.isWordChar (h : Finishes (.bare read) cs) (hc : c ∈ read) : IsWordChar c := by
  obtain ⟨e, ts, us, hsteps, hfinish⟩ := h
  have hword : ∀ u, bareToken? read.reverse = some u → IsWordChar c := fun u hu =>
    bareToken?_chars hu (List.mem_reverse.mpr hc)
  induction cs generalizing read ts with
  | nil =>
    cases hsteps
    obtain ⟨u, hu, -⟩ := Option.map_eq_some_iff.mp hfinish
    exact hword u hu
  | cons d r ih =>
    obtain ⟨m, vs, ws, hstep, hrest, -⟩ := hsteps.cons_inv
    rw [step] at hstep
    split at hstep
    · obtain ⟨u, hu, -⟩ := Option.map_eq_some_iff.mp hstep
      exact hword u hu
    · cases hstep
      exact ih (List.mem_cons_of_mem d hc) ws hrest
        fun u hu => bareToken?_chars hu (List.mem_reverse.mpr (List.mem_cons_of_mem d hc))

/-! ## Inside and outside of strings -/

/-- Between tokens or in a word. -/
def IsOutside : JsonLexer → Prop
  | between | bare _ => True
  | quoted _ | escape _ | code .. => False

/-- A character that neither opens nor closes anything. -/
def IsPlain (c : Char) : Prop := c ∉ ['[', ']', '{', '}', '"']

instance (c : Char) : Decidable (IsPlain c) := inferInstanceAs (Decidable (c ∉ _))

theorem isOutside_stepBetween (h : c ≠ '"') : (stepBetween c).1.IsOutside := by
  unfold stepBetween
  repeat' split
  all_goals trivial

theorem stepBetween_of_plain (h : IsPlain c) (hs : stepBetween c = (m, ts)) :
    m.IsOutside ∧ ∀ t ∈ ts, t.nesting = 0 := by
  simp only [IsPlain, List.mem_cons, List.not_mem_nil, or_false, not_or] at h
  obtain ⟨h1, h2, h3, h4, h5⟩ := h
  unfold stepBetween at hs
  rw [if_neg h1, if_neg h2, if_neg h3, if_neg h4, if_neg h5] at hs
  split at hs
  · cases hs
    exact ⟨trivial, nofun⟩
  split at hs
  · cases hs
    refine ⟨trivial, ?_⟩
    intro t ht
    rw [List.mem_singleton.mp ht]
    rfl
  split at hs
  · cases hs
    refine ⟨trivial, ?_⟩
    intro t ht
    rw [List.mem_singleton.mp ht]
    rfl
  · cases hs
    exact ⟨trivial, nofun⟩

/-- A character outside of strings does what it does between tokens, once the word before it
has ended, or it belongs to the word. -/
theorem step_outside (hl : l.IsOutside) (h : l.step c = some (m, ts)) :
    (∃ us, (∀ t ∈ us, t.nesting = 0) ∧ m = (stepBetween c).1 ∧ ts = us ++ (stepBetween c).2) ∨
      (endsBare c = false ∧ ts = [] ∧ ∃ read, m = .bare (c :: read)) := by
  cases l with
  | between =>
    have hm : stepBetween c = (m, ts) := Option.some.inj h
    exact .inl ⟨[], nofun, by rw [hm], by rw [hm]; rfl⟩
  | bare read =>
    rw [step] at h
    split at h
    · obtain ⟨t, ht, hm⟩ := Option.map_eq_some_iff.mp h
      cases hm
      refine .inl ⟨[t], ?_, rfl, rfl⟩
      intro u hu
      rw [List.mem_singleton.mp hu]
      exact nesting_of_bareToken? ht
    · rename_i hend
      cases h
      exact .inr ⟨by simpa using hend, rfl, read, rfl⟩
  | quoted | escape | code => exact hl.elim

/-- A character in a string goes on with it or ends it. -/
theorem step_inside (hl : ¬ l.IsOutside) (h : l.step c = some (m, ts)) :
    (∃ s, m = .between ∧ ts = [.string s]) ∨ (¬ m.IsOutside ∧ ts = []) := by
  cases l with
  | between => exact absurd trivial hl
  | bare => exact absurd trivial hl
  | quoted units =>
    rw [step] at h
    split at h
    · cases h
      exact .inl ⟨_, rfl, rfl⟩
    split at h
    · cases h
      exact .inr ⟨not_false, rfl⟩
    split at h
    · cases h
    · cases h
      exact .inr ⟨not_false, rfl⟩
  | escape units =>
    rw [step] at h
    split at h
    · cases h
      exact .inr ⟨not_false, rfl⟩
    · obtain ⟨d, -, hd⟩ := Option.map_eq_some_iff.mp h
      cases hd
      exact .inr ⟨not_false, rfl⟩
  | code units digits value =>
    obtain ⟨d, -, hd⟩ := Option.map_eq_some_iff.mp h
    split at hd
    · cases hd
      exact .inr ⟨not_false, rfl⟩
    · cases hd
      exact .inr ⟨not_false, rfl⟩

/-- Nothing is opened or closed by plain characters. -/
theorem Steps.of_plain (h : Steps l cs ts e) (hl : l.IsOutside) (hcs : ∀ c ∈ cs, IsPlain c) :
    e.IsOutside ∧ ∀ t ∈ ts, t.nesting = 0 := by
  induction h with
  | nil => exact ⟨hl, nofun⟩
  | @cons l m e c r ts us hstep hrest ih =>
    have hm : m.IsOutside ∧ ∀ t ∈ ts, t.nesting = 0 := by
      rcases step_outside hl hstep with ⟨us, hus, rfl, rfl⟩ | ⟨-, rfl, read, rfl⟩
      · obtain ⟨hout, hflat⟩ := stepBetween_of_plain (hcs c List.mem_cons_self)
          (rfl : stepBetween c = ((stepBetween c).1, (stepBetween c).2))
        refine ⟨hout, ?_⟩
        intro t ht
        rcases List.mem_append.mp ht with ht | ht
        · exact hus t ht
        · exact hflat t ht
      · exact ⟨trivial, nofun⟩
    obtain ⟨he, hus⟩ := ih hm.1 fun d hd => hcs d (List.mem_cons_of_mem c hd)
    refine ⟨he, ?_⟩
    intro t ht
    rcases List.mem_append.mp ht with ht | ht
    · exact hm.2 t ht
    · exact hus t ht

theorem nesting_of_finish (hfinish : l.finish = some ts) (ht : t ∈ ts) : t.nesting = 0 := by
  cases l with
  | between =>
    cases hfinish
    cases ht
  | bare read =>
    obtain ⟨u, hu, rfl⟩ := Option.map_eq_some_iff.mp hfinish
    rw [List.mem_singleton.mp ht]
    exact nesting_of_bareToken? hu
  | quoted | escape | code => cases hfinish

/-- No text can be read both from outside of a string and from inside of one: every quotation
mark turns the one into the other, so that in the end there is an open string. -/
theorem Finishes.not_quoted (hl : l.IsOutside) (h : Finishes l cs) (units : List JsonUnit) :
    ¬ Finishes (.quoted units) cs := by
  induction cs generalizing l units with
  | nil =>
    rintro ⟨e, ts, us, hsteps, hfinish⟩
    cases hsteps
    cases hfinish
  | cons c r ih =>
    intro hquoted
    obtain ⟨m, us, hm, hmr⟩ := h.cons_inv
    obtain ⟨q, vs, hq, hqr⟩ := hquoted.cons_inv
    rw [step] at hq
    split at hq
    -- the string ends here, and another one starts
    · rename_i hmark
      cases hq
      subst hmark
      rcases step_outside hl hm with ⟨ws, -, rfl, -⟩ | ⟨hend, -⟩
      · exact ih (l := .between) trivial hqr [] hmr
      · exact absurd hend (by decide)
    split at hq
    -- outside of strings a backslash belongs to no token
    · rename_i hback
      subst hback
      rcases step_outside hl hm with ⟨ws, -, rfl, -⟩ | ⟨-, -, read, rfl⟩
      · have hword : Finishes (.bare ['\\']) r := hmr
        exact not_isWordChar_backslash (hword.isWordChar List.mem_cons_self)
      · exact not_isWordChar_backslash (Finishes.isWordChar hmr List.mem_cons_self)
    split at hq
    · cases hq
    · rename_i hmark _ _
      cases hq
      have hout : m.IsOutside := by
        rcases step_outside hl hm with ⟨ws, -, rfl, -⟩ | ⟨-, -, read, rfl⟩
        · exact isOutside_stepBetween hmark
        · trivial
      exact ih hout hmr _ hqr

/-! ## Which characters make which tokens -/

/-- Brackets of arrays are tokens of their own and no parts of others. -/
theorem eq_of_step (h : l.step c = some (m, ts)) :
    (.openArray ∈ ts → c = '[') ∧ (.closeArray ∈ ts → c = ']') := by
  have hbetween : (.openArray ∈ (stepBetween c).2 → c = '[') ∧
      (.closeArray ∈ (stepBetween c).2 → c = ']') := by
    unfold stepBetween
    repeat' split
    all_goals simp_all
  by_cases hl : l.IsOutside
  · rcases step_outside hl h with ⟨us, hus, -, rfl⟩ | ⟨-, rfl, -⟩
    · constructor
      · intro hmem
        rcases List.mem_append.mp hmem with hmem | hmem
        · cases hus _ hmem
        · exact hbetween.1 hmem
      · intro hmem
        rcases List.mem_append.mp hmem with hmem | hmem
        · cases hus _ hmem
        · exact hbetween.2 hmem
    · exact ⟨nofun, nofun⟩
  · rcases step_inside hl h with ⟨_, -, rfl⟩ | ⟨-, rfl⟩
    · simp
    · exact ⟨nofun, nofun⟩

theorem Steps.mem_of_mem (h : Steps l cs ts e) :
    (.openArray ∈ ts → '[' ∈ cs) ∧ (.closeArray ∈ ts → ']' ∈ cs) := by
  induction h with
  | nil => exact ⟨nofun, nofun⟩
  | cons hstep _ ih =>
    obtain ⟨hopen, hclose⟩ := eq_of_step hstep
    constructor
    · intro hmem
      rcases List.mem_append.mp hmem with hmem | hmem
      · rw [hopen hmem]
        exact List.mem_cons_self
      · exact List.mem_cons_of_mem _ (ih.1 hmem)
    · intro hmem
      rcases List.mem_append.mp hmem with hmem | hmem
      · rw [hclose hmem]
        exact List.mem_cons_self
      · exact List.mem_cons_of_mem _ (ih.2 hmem)

/-- What has been begun between two tokens ends in a token that is no bracket. -/
theorem step_begun (hl : l ≠ .between) (h : l.step c = some (m, ts)) :
    (ts = [] ∧ m ≠ .between) ∨ ∃ t r, ts = t :: r ∧ t.nesting = 0 := by
  by_cases hout : l.IsOutside
  · cases l with
    | between => exact absurd rfl hl
    | bare read =>
      rw [step] at h
      split at h
      · obtain ⟨t, ht, hm⟩ := Option.map_eq_some_iff.mp h
        cases hm
        exact .inr ⟨t, _, rfl, nesting_of_bareToken? ht⟩
      · cases h
        refine .inl ⟨rfl, fun hbetween => ?_⟩
        cases hbetween
    | quoted | escape | code => exact hout.elim
  · rcases step_inside hout h with ⟨s, -, rfl⟩ | ⟨hm, rfl⟩
    · exact .inr ⟨_, _, rfl, rfl⟩
    · refine .inl ⟨rfl, ?_⟩
      rintro rfl
      exact hm trivial

/-- The first token that completes what has been begun. -/
theorem Steps.first_of_begun (h : Steps l cs ts e) (hl : l ≠ .between) (he : e.finish = some us) :
    ∃ t r, ts ++ us = t :: r ∧ t.nesting = 0 := by
  induction h with
  | nil =>
    rename_i l
    cases l with
    | between => exact absurd rfl hl
    | bare read =>
      obtain ⟨t, ht, rfl⟩ := Option.map_eq_some_iff.mp he
      exact ⟨t, [], rfl, nesting_of_bareToken? ht⟩
    | quoted | escape | code => cases he
  | cons hstep _ ih =>
    rcases step_begun hl hstep with ⟨rfl, hm⟩ | ⟨t, r, rfl, ht⟩
    · exact ih hm he
    · exact ⟨t, _, rfl, ht⟩

/-- A stretch from between two tokens to between two tokens without a token is blank. -/
theorem Steps.blank_of_silent (h : Steps l cs [] .between) :
    l = .between ∧ ∀ c ∈ cs, isJsonBlank c = true := by
  induction cs generalizing l with
  | nil =>
    cases h
    exact ⟨rfl, nofun⟩
  | cons c r ih =>
    obtain ⟨m, us, vs, hstep, hrest, hnil⟩ := h.cons_inv
    obtain ⟨rfl, rfl⟩ := List.append_eq_nil_iff.mp hnil.symm
    obtain ⟨rfl, hr⟩ := ih hrest
    have hl : l = .between := by
      by_contra hl
      rcases step_begun hl hstep with ⟨-, hm⟩ | ⟨t, r, hcons, -⟩
      · exact hm rfl
      · cases hcons
    subst hl
    have hc : isJsonBlank c = true := by
      have hpair : stepBetween c = (.between, []) := Option.some.inj hstep
      by_contra hc
      unfold stepBetween at hpair
      rw [if_neg hc] at hpair
      repeat' split at hpair
      all_goals cases hpair
    refine ⟨rfl, ?_⟩
    intro d hd
    rcases List.mem_cons.mp hd with rfl | hd
    · exact hc
    · exact hr d hd

theorem steps_blank (h : ∀ c ∈ cs, isJsonBlank c = true) : Steps .between cs [] .between := by
  induction cs with
  | nil => exact .nil
  | cons c r ih =>
    have hstep : step .between c = some (.between, []) := by
      rw [step, stepBetween, if_pos (h c List.mem_cons_self)]
    exact .cons hstep (ih fun d hd => h d (List.mem_cons_of_mem c hd))

/-- Between two tokens no other blanks than those of JSON are read. -/
theorem Finishes.isJsonBlank (h : Finishes .between (cs ++ ds))
    (hcs : ∀ c ∈ cs, Text.isBlank c = true) : ∀ c ∈ cs, SmellWatch.isJsonBlank c = true := by
  induction cs with
  | nil => exact nofun
  | cons c r ih =>
    obtain ⟨m, us, hstep, hrest⟩ := h.cons_inv
    have hc : SmellWatch.isJsonBlank c = true := by
      by_contra hc
      have hblank := hcs c List.mem_cons_self
      have hbare : stepBetween c = (.bare [c], []) := by
        unfold stepBetween
        rw [if_neg hc]
        repeat' split
        all_goals first | rfl | (subst c; exact absurd hblank (by decide))
      rw [step, hbare] at hstep
      cases hstep
      rw [(hrest.isWordChar List.mem_cons_self).not_blank] at hblank
      cases hblank
    rw [step, stepBetween, if_pos hc] at hstep
    cases hstep
    intro d hd
    rcases List.mem_cons.mp hd with rfl | hd
    · exact hc
    · exact ih hrest (fun d hd => hcs d (List.mem_cons_of_mem c hd)) d hd

theorem isPlain_of_isJsonBlank (h : isJsonBlank c = true) : IsPlain c := by
  intro hmem
  simp only [List.mem_cons, List.not_mem_nil, or_false] at hmem
  rcases hmem with rfl | rfl | rfl | rfl | rfl <;> cases h

/-- Blanks of JSON are blanks. -/
theorem isBlank_of_isJsonBlank (h : isJsonBlank c = true) : Text.isBlank c = true := by
  unfold isJsonBlank at h
  simp only [Bool.or_eq_true, decide_eq_true_eq] at h
  rcases h with ((rfl | rfl) | rfl) | rfl <;> decide

/-! ## Single characters -/

/-- No token goes on over the end of a line. -/
theorem step_newline (h : l.step '\n' = some (m, ts)) : m = .between := by
  cases l with
  | between =>
    cases h
    rfl
  | bare read =>
    obtain ⟨t, -, hm⟩ := Option.map_eq_some_iff.mp h
    cases hm
    rfl
  | quoted units => cases h
  | escape units => cases h
  | code units digits value => cases h

/-- An opening bracket outside of strings. -/
theorem step_bracket (hl : l.IsOutside) (h : l.step '[' = some (m, ts)) :
    m = .between ∧ ∃ us, (∀ t ∈ us, t.nesting = 0) ∧ ts = us ++ [.openArray] := by
  rcases step_outside hl h with ⟨us, hus, rfl, rfl⟩ | ⟨hend, -⟩
  · exact ⟨rfl, us, hus, rfl⟩
  · exact absurd hend (by decide)

/-- An opening bracket in a string belongs to it. -/
theorem step_bracket_inside (hl : ¬ l.IsOutside) (h : l.step '[' = some (m, ts)) :
    ∃ units, m = .quoted units := by
  cases l with
  | between => exact absurd trivial hl
  | bare read => exact absurd trivial hl
  | quoted units =>
    cases h
    exact ⟨_, rfl⟩
  | escape units => cases h
  | code units digits value => cases h

end JsonLexer

end SmellWatch
