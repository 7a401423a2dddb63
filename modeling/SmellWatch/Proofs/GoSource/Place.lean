import Mathlib.Data.List.Induction
import SmellWatch.GoSource.Stripped
import SmellWatch.Proofs.Text.Lines
/-! Where in Go code one stands after some text, read a character at a time.

A `Place` says of the text so far in which literal or comment it ends, and what of a delimiter
or an escape has been read. Two readers go from place to place (`Place.next`): the language, for
which a raw literal goes on over line ends, and the scanner, for which no literal does. They part
nowhere else (`inStep_of_rawLiteralsClose`).

What the scanner leaves of a text, standing at a place, is `view`. A character that is no part
of a line end adds to the line it is on (`view_cons`), a line feed ends it (`view_feed`); so
two texts of which the scanner leaves the same at one place are the same to it after any text
that leads there (`view_append_congr`). -/

namespace SmellWatch.GoSource

open Text

inductive Place
  | code
  /-- A slash of code, which may yet begin a comment. -/
  | slash
  | literal (quote : Char)
  /-- A backslash in a literal that is not raw. -/
  | escape (quote : Char) (h : isRaw quote = false)
  | lineComment
  | blockComment
  /-- An asterisk in a block comment, which may yet end it. -/
  | star
deriving DecidableEq

namespace Place

/-- The place after a character of code that goes on no delimiter. -/
def afterCode (c : Char) : Place :=
  if isQuote c then literal c else if c = '/' then slash else code

/-- The place after one more character; `carriesRaw` says whether a raw literal goes on over the
end of a line. -/
def next (carriesRaw : Bool) : Place → Char → Place
  | code, c => afterCode c
  | slash, c =>
    if c = '/' then lineComment else if c = '*' then blockComment else afterCode c
  | literal q, c =>
    if c = '\n' then if carriesRaw && isRaw q then literal q else code
    else if h : c = '\\' ∧ isRaw q = false then escape q h.2
    else if c = q then code
    else literal q
  | escape q _, c => if c = '\n' then code else literal q
  | lineComment, c => if c = '\n' then code else lineComment
  | blockComment, c => if c = '*' then star else blockComment
  | star, c => if c = '/' then code else if c = '*' then star else blockComment

/-- Where a text ends for the language. -/
def after (cs : List Char) : Place := cs.foldl (next true) code

/-- Where a text ends for the scanner. -/
def afterScan (cs : List Char) : Place := cs.foldl (next false) code

/-- The quote of the literal. -/
def quote? : Place → Option Char
  | literal q | escape q _ => some q
  | code | slash | lineComment | blockComment | star => none

/-- The mode of the scanner. -/
def mode : Place → Mode
  | code | slash | lineComment => .code
  | literal q | escape q _ => .literal q
  | blockComment | star => .comment

/-- What the scanner read and has still to look at together with the next character. -/
def held : Place → List Char
  | code | literal _ | blockComment => []
  | slash => ['/']
  | escape _ _ => ['\\']
  | lineComment => ['/', '/']
  | star => ['*']

/-- What a character adds to a stripped line. -/
def leaves : Place → Char → List Char
  | code, c => if c = '/' then [] else [c]
  | slash, c => if c = '/' ∨ c = '*' then [] else ['/', c]
  | literal q, c => if c = '\\' ∧ isRaw q = false then [] else if c = q then [c] else []
  | escape _ _, _ | lineComment, _ | blockComment, _ | star, _ => []

end Place

variable {p : Place} {c q : Char} {w x y body : List Char} {carriesRaw : Bool}

namespace Place

theorem next_slash (hslash : c ≠ '/') (hstar : c ≠ '*') :
    slash.next carriesRaw c = afterCode c := by
  rw [next, if_neg hslash, if_neg hstar]

theorem next_literal_backslash (h : isRaw q = false) :
    (literal q).next carriesRaw '\\' = escape q h := by
  rw [next, if_neg (by decide), dif_pos ⟨rfl, h⟩]

theorem next_literal (hc : c ≠ '\n') (h : ¬ (c = '\\' ∧ isRaw q = false)) :
    (literal q).next carriesRaw c = if c = q then code else literal q := by
  rw [next, if_neg hc, dif_neg h]

theorem next_star (hslash : c ≠ '/') (hstar : c ≠ '*') :
    star.next carriesRaw c = blockComment := by
  rw [next, if_neg hslash, if_neg hstar]

end Place

/-! ## The scanner on one line -/

theorem strip_nil (m : Mode) : strip m [] = ([], m) := by
  cases m <;> rfl

theorem strip_code_cons (h : c ≠ '/') (w : List Char) :
    strip .code (c :: w) =
      (c :: (strip (Place.afterCode c).mode w).1, (strip (Place.afterCode c).mode w).2) := by
  have hmode : (Place.afterCode c).mode = if isQuote c then .literal c else .code := by
    unfold Place.afterCode
    rw [if_neg h]
    split <;> rfl
  rw [hmode]
  cases w with
  | nil => simp only [strip]
  | cons d r => simp only [strip, h, false_and, if_false]

theorem strip_literal_cons (h : ¬ (c = '\\' ∧ isRaw q = false)) (w : List Char) :
    strip (.literal q) (c :: w) =
      if c = q then (c :: (strip .code w).1, (strip .code w).2) else strip (.literal q) w := by
  cases w with
  | nil => simp only [strip]
  | cons d r =>
    have hescape : ¬ (c = '\\' ∧ (!isRaw q) = true) := by simpa using h
    simp only [strip, hescape, if_false]

theorem strip_comment_cons (h : c ≠ '*') (w : List Char) :
    strip .comment (c :: w) = strip .comment w := by
  cases w with
  | nil => rfl
  | cons d r => simp only [strip, h, false_and, if_false]

theorem held_afterCode (h : c ≠ '/') : (Place.afterCode c).held = [] := by
  unfold Place.afterCode
  rw [if_neg h]
  split <;> rfl

/-- One character further, the scanner is at the next place, and its line has what the character
adds to it. -/
theorem strip_held_cons (p : Place) (hc : c ≠ '\n') (w : List Char) :
    strip p.mode (p.held ++ c :: w) =
      (p.leaves c ++ (strip (p.next false c).mode ((p.next false c).held ++ w)).1,
        (strip (p.next false c).mode ((p.next false c).held ++ w)).2) := by
  cases p with
  | code =>
    by_cases hslash : c = '/'
    · subst hslash
      rfl
    · rw [Place.next, held_afterCode hslash, Place.leaves, if_neg hslash]
      exact strip_code_cons hslash w
  | slash =>
    by_cases hline : c = '/'
    · subst hline
      rfl
    by_cases hblock : c = '*'
    · subst hblock
      rfl
    -- the slash was a sign of its own
    rw [Place.next_slash hline hblock, held_afterCode hline, Place.leaves,
      if_neg (not_or.mpr ⟨hline, hblock⟩)]
    have hslash : strip .code ('/' :: c :: w) =
        ('/' :: (strip .code (c :: w)).1, (strip .code (c :: w)).2) := by
      have hquote : isQuote '/' = false := by decide
      simp only [strip, hline, hblock, and_false, if_false, hquote, Bool.false_eq_true]
    change strip .code ('/' :: c :: w) = _
    rw [hslash, strip_code_cons hline]
    rfl
  | literal q =>
    by_cases hescape : c = '\\' ∧ isRaw q = false
    · obtain ⟨rfl, hraw⟩ := hescape
      rw [Place.next_literal_backslash hraw, Place.leaves, if_pos ⟨rfl, hraw⟩]
      rfl
    · rw [Place.next_literal hc hescape, Place.leaves, if_neg hescape]
      change strip (.literal q) (c :: w) = _
      rw [strip_literal_cons hescape]
      split <;> rfl
  | escape q h =>
    rw [Place.next, if_neg hc]
    change strip (.literal q) ('\\' :: c :: w) = _
    simp only [strip, h, Bool.not_false, and_self, if_true]
    rfl
  | lineComment =>
    rw [Place.next, if_neg hc]
    rfl
  | blockComment =>
    by_cases hstar : c = '*'
    · subst hstar
      rfl
    · rw [Place.next, if_neg hstar]
      exact strip_comment_cons hstar w
  | star =>
    by_cases hslash : c = '/'
    · subst hslash
      rfl
    by_cases hstar : c = '*'
    · subst hstar
      rfl
    rw [Place.next_star hslash hstar]
    have hopen : strip .comment ('*' :: c :: w) = strip .comment (c :: w) := by
      simp only [strip, hslash, and_false, if_false]
    change strip .comment ('*' :: c :: w) = _
    rw [hopen, strip_comment_cons hstar]
    rfl

/-! ## The scanner on the lines of a text -/

/-- The lines of a text stripped, the first of them from a mode on. -/
def stripFrom (m : Mode) : List (List Char) → List (List Char)
  | [] => []
  | line :: r => (strip m line).1 :: stripLines ((strip m line).2 = .comment) r

/-- What the scanner leaves of the lines of a text that follows a place; the first of them is the
rest of the line that the place is on. -/
def view (p : Place) (cs : List Char) : List (List Char) :=
  stripFrom p.mode (charLines (p.held ++ cs))

/-- More on the first line. -/
def onFirst (front : List Char) : List (List Char) → List (List Char)
  | [] => [front]
  | line :: r => (front ++ line) :: r

theorem stripLines_eq_stripFrom (inComment : Bool) (ls : List (List Char)) :
    stripLines inComment ls = stripFrom (if inComment then .comment else .code) ls := by
  cases ls <;> rfl

theorem stripLines_eq_view (inComment : Bool) (cs : List Char) :
    stripLines inComment (charLines cs) =
      view (if inComment then .blockComment else .code) cs := by
  rw [stripLines_eq_stripFrom]
  cases inComment <;> rfl

theorem feed_not_mem_held (p : Place) : '\n' ∉ p.held := by
  cases p <;> simp [Place.held]

theorem dropCarriageReturn_held_append (p : Place) (w : List Char) :
    dropCarriageReturn (p.held ++ w) = p.held ++ dropCarriageReturn w := by
  by_cases hw : w = []
  · subst hw
    cases p <;> rfl
  · exact dropCarriageReturn_append hw p.held

/-- A line and its end. -/
theorem view_append (p : Place) (hw : '\n' ∉ w) (x : List Char) :
    view p (w ++ '\n' :: x) = (strip p.mode (p.held ++ dropCarriageReturn w)).1 ::
      view (if (strip p.mode (p.held ++ dropCarriageReturn w)).2 = .comment then .blockComment
        else .code) x := by
  have hfeed : '\n' ∉ p.held ++ w := by
    simp [feed_not_mem_held, hw]
  unfold view
  rw [← List.append_assoc, charLines_append hfeed, dropCarriageReturn_held_append, stripFrom,
    stripLines_eq_view]
  simp only [decide_eq_true_eq]
  rfl

/-- The last line. -/
theorem view_of_not_mem (hw : '\n' ∉ w) (hne : p.held ++ w ≠ []) :
    view p w = [(strip p.mode (p.held ++ w)).1] := by
  have hfeed : '\n' ∉ p.held ++ w := by
    simp [feed_not_mem_held, hw]
  unfold view
  rw [charLines_of_not_mem hfeed hne]
  rfl

theorem view_ne_nil (p : Place) (hx : x ≠ []) : view p x ≠ [] := by
  by_cases hmem : '\n' ∈ x
  · obtain ⟨u, v, rfl, hu⟩ := List.eq_append_cons_of_mem hmem
    rw [view_append p hu]
    exact List.cons_ne_nil _ _
  · rw [view_of_not_mem hmem (by simp [hx])]
    exact List.cons_ne_nil _ _

/-- The place after a line feed is that after the line. -/
theorem next_feed (p : Place) :
    p.next false '\n' =
      if (strip p.mode p.held).2 = .comment then Place.blockComment else .code := by
  cases p with
  | escape q h =>
    have hmode : (strip (.literal q) ['\\']).2 ≠ .comment := by
      unfold strip
      split <;> nofun
    exact (if_neg hmode).symm
  | _ => rfl

/-- A line feed ends the line. -/
theorem view_feed (p : Place) (x : List Char) :
    view p ('\n' :: x) = (strip p.mode p.held).1 :: view (p.next false '\n') x := by
  have hline := view_append (w := []) p List.not_mem_nil x
  rw [next_feed]
  simpa [dropCarriageReturn] using hline

/-- A carriage return before it belongs to the line end. -/
theorem view_return_feed (p : Place) (x : List Char) :
    view p ('\r' :: '\n' :: x) = view p ('\n' :: x) := by
  have hreturn := view_append (w := ['\r']) p (by decide) x
  have hfeed := view_append (w := []) p List.not_mem_nil x
  exact hreturn.trans hfeed.symm

/-- The character is the carriage return of a line end. -/
def EndsLine (c : Char) (x : List Char) : Prop := c = '\r' ∧ x.head? = some '\n'

/-- A character that is no part of a line end adds to the line that it is on. -/
theorem view_cons (p : Place) (hc : c ≠ '\n') (hend : ¬ EndsLine c x) :
    view p (c :: x) = onFirst (p.leaves c) (view (p.next false c) x) := by
  by_cases hmem : '\n' ∈ x
  · obtain ⟨u, v, rfl, hu⟩ := List.eq_append_cons_of_mem hmem
    have hcu : '\n' ∉ c :: u := by
      simp [hu, hc.symm]
    have hdrop : dropCarriageReturn (c :: u) = c :: dropCarriageReturn u := by
      cases u with
      | nil =>
        have hreturn : c ≠ '\r' := fun heq => hend ⟨heq, rfl⟩
        unfold dropCarriageReturn
        split
        · rename_i heq
          exact absurd (Option.some.inj heq) hreturn
        · rfl
      | cons d r => exact dropCarriageReturn_append (List.cons_ne_nil d r) [c]
    rw [← List.cons_append, view_append p hcu, view_append _ hu, hdrop, strip_held_cons p hc]
    rfl
  · have hcx : '\n' ∉ c :: x := by
      simp [hmem, hc.symm]
    rw [view_of_not_mem hcx (by simp), strip_held_cons p hc]
    by_cases hempty : (p.next false c).held ++ x = []
    · rw [view, hempty, strip_nil, List.append_nil]
      rfl
    · rw [view_of_not_mem hmem hempty]
      rfl

/-- A character that adds nothing only leads to the next place. -/
theorem view_cons_of_leaves (hc : c ≠ '\n') (hend : ¬ EndsLine c x) (hleaves : p.leaves c = [])
    (hx : x ≠ []) : view p (c :: x) = view (p.next false c) x := by
  rw [view_cons p hc hend, hleaves]
  cases h : view (p.next false c) x with
  | nil => exact absurd h (view_ne_nil _ hx)
  | cons line r => rfl

theorem next_return_feed (p : Place) :
    (p.next false '\r').next false '\n' = p.next false '\n' := by
  cases p with
  | literal q =>
    rw [Place.next_literal (by decide) (by simp)]
    split <;> rfl
  | _ => rfl

/-- Texts of which the scanner leaves the same at a place are the same to it after any text
that leads there. -/
theorem view_append_congr (hx : x.head? ≠ some '\n') (hy : y.head? ≠ some '\n') {pre : List Char}
    (h : view (pre.foldl (Place.next false) p) x = view (pre.foldl (Place.next false) p) y) :
    view p (pre ++ x) = view p (pre ++ y) := by
  induction pre generalizing p with
  | nil => exact h
  | cons c r ih =>
    have hrest := ih h
    rw [List.cons_append, List.cons_append]
    by_cases hc : c = '\n'
    · subst hc
      rw [view_feed, view_feed, hrest]
    cases r with
    | nil =>
      rw [List.nil_append, List.nil_append, view_cons p hc fun hend => hx hend.2,
        view_cons p hc fun hend => hy hend.2]
      exact congrArg _ hrest
    | cons d r =>
      by_cases hend : EndsLine c (d :: r)
      · obtain ⟨rfl, hd⟩ := hend
        obtain rfl : d = '\n' := Option.some.inj hd
        -- the line ends at the same place with the carriage return read or not
        rw [List.cons_append, List.cons_append, view_feed, view_feed, next_return_feed] at hrest
        rw [List.cons_append, List.cons_append, view_return_feed, view_return_feed, view_feed,
          view_feed, (List.cons.inj hrest).2]
      · rw [view_cons (x := d :: r ++ x) p hc hend, view_cons (x := d :: r ++ y) p hc hend, hrest]

/-! ## The language and the scanner -/

/-- The scanner is where the language is. -/
def InStep (cs : List Char) : Prop := Place.afterScan cs = Place.after cs

instance (cs : List Char) : Decidable (InStep cs) :=
  inferInstanceAs (Decidable (Place.afterScan cs = Place.after cs))

/-- Every raw literal of the text closes on its own line. -/
def RawLiteralsClose (cs : List Char) : Prop :=
  ∀ u v q, cs = u ++ '\n' :: v → Place.after u = .literal q → isRaw q = false

theorem next_carriesRaw (h : c = '\n' → ∀ q, p = .literal q → isRaw q = false) :
    p.next false c = p.next true c := by
  cases p with
  | literal q =>
    by_cases hc : c = '\n'
    · rw [Place.next, Place.next, if_pos hc, if_pos hc, h hc q rfl]
      rfl
    · rw [Place.next, Place.next, if_neg hc, if_neg hc]
  | _ => rfl

/-- The scanner is where the language is, unless a raw literal goes on over a line end. -/
theorem inStep_of_rawLiteralsClose {cs : List Char} (h : RawLiteralsClose cs) : InStep cs := by
  induction cs using List.reverseRecOn with
  | nil => rfl
  | append_singleton r c ih =>
    have hr : InStep r := by
      refine ih fun u v q heq hu => h u (v ++ [c]) q ?_ hu
      rw [heq, List.append_assoc, List.cons_append]
    unfold InStep Place.afterScan Place.after at hr ⊢
    rw [List.foldl_append, List.foldl_append, hr]
    refine next_carriesRaw fun hc q hq => h r [] q ?_ hq
    rw [hc]

/-- The quote of a literal was read as a character. -/
theorem quote_of_next (h : (p.next carriesRaw c).quote? = some q) : c = q ∨ p.quote? = some q := by
  have hcode : (Place.afterCode c).quote? = some q → c = q := by
    unfold Place.afterCode
    split
    · exact Option.some.inj
    · split <;> nofun
  cases p with
  | code => exact .inl (hcode h)
  | slash =>
    rw [Place.next] at h
    split at h
    · cases h
    · split at h
      · cases h
      · exact .inl (hcode h)
  | literal q' =>
    rw [Place.next] at h
    split at h
    · split at h
      · exact .inr h
      · cases h
    · split at h
      · exact .inr h
      · split at h
        · cases h
        · exact .inr h
  | escape q' hq' =>
    rw [Place.next] at h
    split at h
    · cases h
    · exact .inr h
  | lineComment | blockComment =>
    rw [Place.next] at h
    split at h <;> cases h
  | star =>
    rw [Place.next] at h
    split at h
    · cases h
    · split at h <;> cases h

theorem quote_mem_of_after {cs : List Char} (h : (Place.after cs).quote? = some q) : q ∈ cs := by
  induction cs using List.reverseRecOn with
  | nil => cases h
  | append_singleton r c ih =>
    unfold Place.after at h
    rw [List.foldl_append] at h
    rcases quote_of_next h with rfl | hr
    · exact List.mem_append_right r List.mem_cons_self
    · exact List.mem_append_left [c] (ih hr)

/-- Where no raw literal opens, none goes on over a line end. -/
theorem rawLiteralsClose_of_any {cs : List Char} (h : cs.any isRaw = false) :
    RawLiteralsClose cs := by
  rintro u v q rfl hq
  have hquote : q ∈ u := by
    refine quote_mem_of_after ?_
    rw [hq]
    rfl
  exact Bool.not_eq_true _ ▸ List.any_eq_false.mp h q (List.mem_append_left _ hquote)

end SmellWatch.GoSource
