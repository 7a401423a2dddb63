import Mathlib.Data.List.Infix
import SmellWatch.Proofs.GoSource.Place
/-! Literals and comments, and that nothing of their bodies is left by the scanner.

A `Part` is a literal that closes on its own line, or a comment; its body is well-formed by
construction. Where one begins, what the scanner leaves of the text from there on is the same
for every part of the same kind (`view_text_congr`). -/

namespace SmellWatch.GoSource

open Text

/-- The body of a literal that closes on its own line: no quote ends it sooner, and every backslash
has the character that it escapes. -/
inductive LiteralBody (q : Char) : List Char → Prop
  | nil : LiteralBody q []
  | plain {c : Char} {r : List Char} (hfeed : c ≠ '\n') (hquote : c ≠ q)
      (hescape : ¬ (c = '\\' ∧ isRaw q = false)) (hr : LiteralBody q r) : LiteralBody q (c :: r)
  | escaped {c : Char} {r : List Char} (hraw : isRaw q = false) (hfeed : c ≠ '\n')
      (hr : LiteralBody q r) : LiteralBody q ('\\' :: c :: r)

namespace LiteralBody

variable {q c d : Char} {r : List Char}

theorem singleton_iff :
    LiteralBody q [c] ↔ c ≠ '\n' ∧ c ≠ q ∧ ¬ (c = '\\' ∧ isRaw q = false) := by
  constructor
  · rintro (_ | ⟨hfeed, hquote, hescape, -⟩)
    exact ⟨hfeed, hquote, hescape⟩
  · rintro ⟨hfeed, hquote, hescape⟩
    exact .plain hfeed hquote hescape .nil

theorem cons_cons_iff :
    LiteralBody q (c :: d :: r) ↔
      (c = '\\' ∧ isRaw q = false) ∧ d ≠ '\n' ∧ LiteralBody q r ∨
        ¬ (c = '\\' ∧ isRaw q = false) ∧ c ≠ '\n' ∧ c ≠ q ∧ LiteralBody q (d :: r) := by
  constructor
  · rintro (_ | ⟨hfeed, hquote, hescape, hr⟩ | ⟨hraw, hfeed, hr⟩)
    · exact .inr ⟨hescape, hfeed, hquote, hr⟩
    · exact .inl ⟨⟨rfl, hraw⟩, hfeed, hr⟩
  · rintro (⟨⟨rfl, hraw⟩, hfeed, hr⟩ | ⟨hescape, hfeed, hquote, hr⟩)
    · exact .escaped hraw hfeed hr
    · exact .plain hfeed hquote hescape hr

instance decidable (q : Char) : (body : List Char) → Decidable (LiteralBody q body)
  | [] => isTrue .nil
  | [_] => decidable_of_iff _ singleton_iff.symm
  | _ :: d :: r =>
    have := decidable q r
    have := decidable q (d :: r)
    decidable_of_iff _ cons_cons_iff.symm

end LiteralBody

/-- A literal or a comment. -/
inductive Part
  | literal (quote : Char) (body : List Char) (hquote : isQuote quote = true)
      (hbody : LiteralBody quote body)
  | lineComment (body : List Char) (hbody : '\n' ∉ body)
  | blockComment (body : List Char) (hbody : ¬ ['*', '/'] <:+: body)

namespace Part

def text : Part → List Char
  | literal q body _ _ => q :: (body ++ [q])
  | lineComment body _ => '/' :: '/' :: body
  | blockComment body _ => '/' :: '*' :: (body ++ ['*', '/'])

/-- A part that may stand for another: of the same kind, with as many line ends. -/
def SameKind : Part → Part → Prop
  | literal q _ _ _, literal q' _ _ _ => q = q'
  | lineComment _ _, lineComment _ _ => True
  | blockComment body _, blockComment body' _ => body.count '\n' = body'.count '\n'
  | _, _ => False

/-- The part can begin at the place: in code, and for a comment not with the second of two
slashes. -/
def BeginsAt : Part → Place → Prop
  | literal _ _ _ _, .code | literal _ _ _ _, .slash => True
  | lineComment _ _, .code | blockComment _ _, .code => True
  | _, _ => False

end Part

variable {p : Place} {c q : Char} {body tail : List Char} {a b : Part}

/-! ## Literals -/

theorem feed_not_quote (h : isQuote q = true) : q ≠ '\n' := by
  rintro rfl
  exact absurd h (by decide)

/-- Nothing in the body of a literal ends a line. -/
theorem LiteralBody.not_endsLine (h : LiteralBody q body) (hq : q ≠ '\n') (c : Char)
    (tail : List Char) : ¬ EndsLine c (body ++ q :: tail) := by
  rintro ⟨-, hhead⟩
  cases h with
  | nil => exact hq (Option.some.inj hhead)
  | plain hfeed _ _ _ => exact hfeed (Option.some.inj hhead)
  | escaped _ _ _ => exact absurd (Option.some.inj hhead) (by decide)

/-- The scanner leaves nothing of the body of a literal. -/
theorem view_literal_body (h : LiteralBody q body) (hq : q ≠ '\n') (tail : List Char) :
    view (.literal q) (body ++ q :: tail) = view (.literal q) (q :: tail) := by
  induction h with
  | nil => rfl
  | @plain c r hfeed hquote hescape hr ih =>
    have hleaves : (Place.literal q).leaves c = [] := by
      rw [Place.leaves, if_neg hescape, if_neg hquote]
    rw [List.cons_append, view_cons_of_leaves hfeed (hr.not_endsLine hq c tail) hleaves (by simp),
      Place.next_literal hfeed hescape, if_neg hquote, ih]
  | @escaped c r hraw hfeed hr ih =>
    have hleaves : (Place.literal q).leaves '\\' = [] := by
      rw [Place.leaves, if_pos ⟨rfl, hraw⟩]
    have hback : ¬ EndsLine '\\' (c :: r ++ q :: tail) := fun hend => absurd hend.1 (by decide)
    rw [List.cons_append, view_cons_of_leaves (by decide) hback hleaves (by simp),
      Place.next_literal_backslash hraw, List.cons_append,
      view_cons_of_leaves hfeed (hr.not_endsLine hq c tail) rfl (by simp), Place.next,
      if_neg hfeed, ih]

/-! ## Comments -/

/-- The scanner leaves nothing of a line from the opening of a line comment on. -/
theorem view_lineComment (h : '\n' ∉ body) (post : List Char) :
    view .lineComment (body ++ post) = view .lineComment post := by
  by_cases hmem : '\n' ∈ post
  · obtain ⟨u, v, rfl, hu⟩ := List.eq_append_cons_of_mem hmem
    have hline : '\n' ∉ body ++ u := by simp [h, hu]
    rw [← List.append_assoc, view_append _ hline, view_append _ hu]
    rfl
  · have hline : '\n' ∉ body ++ post := by simp [h, hmem]
    rw [view_of_not_mem hline (by simp [Place.held]), view_of_not_mem hmem (by simp [Place.held])]
    rfl

theorem eq_of_mode_comment (hp : p.mode = .comment) : p = .blockComment ∨ p = .star := by
  cases p with
  | blockComment => exact .inl rfl
  | star => exact .inr rfl
  | _ => cases hp

theorem strip_comment_held (hp : p.mode = .comment) : (strip p.mode p.held).1 = [] := by
  rcases eq_of_mode_comment hp with rfl | rfl <;> rfl

theorem leaves_comment (hp : p.mode = .comment) (c : Char) : p.leaves c = [] := by
  rcases eq_of_mode_comment hp with rfl | rfl <;> rfl

theorem next_comment_star (hp : p.mode = .comment) : p.next false '*' = .star := by
  rcases eq_of_mode_comment hp with rfl | rfl <;> rfl

/-- In a block comment that does not end here, the next place is in it too, and what is held there
was read before. -/
theorem comment_next (hp : p.mode = .comment) (h : ¬ ['*', '/'] <:+: p.held ++ c :: tail) :
    (p.next false c).mode = .comment ∧ (p.next false c).held ++ tail <:+ p.held ++ c :: tail := by
  by_cases hstar : c = '*'
  · subst hstar
    rw [next_comment_star hp]
    exact ⟨rfl, List.suffix_append _ _⟩
  · have hnext : p.next false c = .blockComment := by
      rcases eq_of_mode_comment hp with rfl | rfl
      · exact if_neg hstar
      · refine Place.next_star ?_ hstar
        rintro rfl
        exact h ⟨[], tail, rfl⟩
    rw [hnext]
    exact ⟨rfl, (List.suffix_cons c tail).trans (List.suffix_append _ _)⟩

/-- In a block comment a character only leads to the next place, even the carriage return of a
line end. -/
theorem view_comment_cons (hp : p.mode = .comment) (hnext : (p.next false c).mode = .comment)
    (hc : c ≠ '\n') (htail : tail ≠ []) : view p (c :: tail) = view (p.next false c) tail := by
  by_cases hend : EndsLine c tail
  · obtain ⟨rfl, hhead⟩ := hend
    obtain ⟨r, rfl⟩ := List.head?_eq_some_iff.mp hhead
    rw [view_return_feed, view_feed, view_feed, strip_comment_held hp, strip_comment_held hnext,
      next_return_feed]
  · exact view_cons_of_leaves hc hend (leaves_comment hp c) htail

/-- The scanner leaves an empty line for each line end in a block comment, and nothing
else of its body. -/
theorem view_block_body (hp : p.mode = .comment) (hbody : ¬ ['*', '/'] <:+: p.held ++ body)
    (post : List Char) :
    view p (body ++ '*' :: '/' :: post) =
      List.replicate (body.count '\n') [] ++ view .star ('/' :: post) := by
  induction body generalizing p with
  | nil =>
    have hstar := next_comment_star hp
    rw [List.nil_append, view_comment_cons hp (by rw [hstar]; rfl) (by decide) (by simp), hstar]
    rfl
  | cons c r ih =>
    obtain ⟨hnext, hsuffix⟩ := comment_next hp hbody
    have hrest := ih hnext fun hin => hbody (hin.trans hsuffix.isInfix)
    rw [List.cons_append]
    by_cases hc : c = '\n'
    · subst hc
      rw [view_feed, strip_comment_held hp, hrest, List.count_cons_self, List.replicate_succ,
        List.cons_append]
    · rw [view_comment_cons hp hnext hc (by simp), hrest, List.count_cons_of_ne hc]

/-! ## Parts -/

theorem next_quote (hq : isQuote q = true) (hp : p = .code ∨ p = .slash) :
    p.next false q = .literal q := by
  have hslash : q ≠ '/' := by
    rintro rfl
    exact absurd hq (by decide)
  have hstar : q ≠ '*' := by
    rintro rfl
    exact absurd hq (by decide)
  have hcode : Place.afterCode q = .literal q := if_pos hq
  rcases hp with rfl | rfl
  · exact hcode
  · exact (Place.next_slash hslash hstar).trans hcode

/-- A literal is to the scanner as the one with nothing between the quotes. -/
theorem view_literal (hq : isQuote q = true) (hbody : LiteralBody q body)
    (hp : p = .code ∨ p = .slash) (post : List Char) :
    view p (q :: (body ++ q :: post)) = view p (q :: q :: post) := by
  have hfeed := feed_not_quote hq
  have hend : ∀ tail, ¬ EndsLine q tail := by
    rintro tail ⟨rfl, -⟩
    exact absurd hq (by decide)
  rw [view_cons p hfeed (hend _), view_cons p hfeed (hend _), next_quote hq hp,
    view_literal_body hbody hfeed]

/-- Of a block comment the scanner knows the line ends only. -/
theorem view_blockComment (hbody : ¬ ['*', '/'] <:+: body) (post : List Char) :
    view .code ('/' :: '*' :: (body ++ '*' :: '/' :: post)) =
      List.replicate (body.count '\n') [] ++ view .star ('/' :: post) := by
  have hopen : view .slash ('*' :: (body ++ '*' :: '/' :: post)) =
      view .blockComment (body ++ '*' :: '/' :: post) :=
    view_cons_of_leaves (by decide) (fun hend => absurd hend.1 (by decide)) rfl (by simp)
  exact hopen.trans (view_block_body (p := .blockComment) rfl hbody post)

/-- Where a part begins, what the scanner leaves from there on tells only its kind. -/
theorem view_text_congr (hkind : a.SameKind b) (hbegin : a.BeginsAt p) (post : List Char) :
    view p (a.text ++ post) = view p (b.text ++ post) := by
  cases a with
  | literal q body hq hbody =>
    cases b with
    | literal q' body' hq' hbody' =>
      obtain rfl : q = q' := hkind
      have hp : p = .code ∨ p = .slash := by
        cases p with
        | code => exact .inl rfl
        | slash => exact .inr rfl
        | _ => exact hbegin.elim
      simp only [Part.text, List.cons_append, List.append_assoc, List.nil_append]
      rw [view_literal hq hbody hp, view_literal hq hbody' hp]
    | _ => exact hkind.elim
  | lineComment body hbody =>
    cases b with
    | lineComment body' hbody' =>
      cases p with
      | code => exact (view_lineComment hbody post).trans (view_lineComment hbody' post).symm
      | _ => exact hbegin.elim
    | _ => exact hkind.elim
  | blockComment body hbody =>
    cases b with
    | blockComment body' hbody' =>
      have hcount : body.count '\n' = body'.count '\n' := hkind
      cases p with
      | code =>
        simp only [Part.text, List.cons_append, List.append_assoc, List.nil_append]
        rw [view_blockComment hbody, view_blockComment hbody', hcount]
      | _ => exact hbegin.elim
    | _ => exact hkind.elim

/-- A part does not begin with a line end. -/
theorem Part.head?_text_append (a : Part) (post : List Char) :
    (a.text ++ post).head? ≠ some '\n' := by
  intro h
  cases a with
  | literal q body hq hbody => exact feed_not_quote hq (Option.some.inj h)
  | lineComment body hbody => exact absurd (Option.some.inj h) (by decide)
  | blockComment body hbody => exact absurd (Option.some.inj h) (by decide)

/-- In a text whose front leads the scanner to where a part begins, the scanner leaves the same
of every part of its kind. -/
theorem stripLines_text_congr {pre : List Char} (hkind : a.SameKind b)
    (hbegin : a.BeginsAt (Place.afterScan pre)) (post : List Char) :
    stripLines false (charLines (pre ++ (a.text ++ post))) =
      stripLines false (charLines (pre ++ (b.text ++ post))) := by
  rw [stripLines_eq_view, stripLines_eq_view]
  exact view_append_congr (a.head?_text_append post) (b.head?_text_append post)
    (view_text_congr hkind hbegin post)

end SmellWatch.GoSource
