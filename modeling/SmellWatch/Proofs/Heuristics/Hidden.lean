import SmellWatch.Proofs.GoSource.RawLiteral
import SmellWatch.Proofs.Heuristics.Course
/-! Bodies of literals and comments are hidden from the heuristics.

What is found in a document depends on no body of a literal or a comment in it, as long as the
scanner is where the language is when it comes to it, and so if no raw literal before it goes on
over a line end (`hides_of_inStep`). A raw literal that does is not followed to its end: its later
lines are read as code, and a quote among them makes code of a literal that comes after it
(`not_hides_rawLines`).

Such a literal is itself hidden on its first line only. On every other line of its body any plain
code can be made to show (`strip_bare`). A call to panic there is reported, so the body is not
hidden, wherever the literal begins and whatever follows it (`not_hidesRaw`). On its first line
nothing is found, and the other lines matter as the same lines of code would
(`scan_rawLiteral_congr`). -/

namespace SmellWatch.Heuristics

open GoSource

/-- What is found in a document is the same with any body of the literal or the comment that
follows `pre` in it. -/
def Hides (document : DocumentId) (pre : List Char) : Prop :=
  ∀ (a b : Part) (post : List Char), a.SameKind b → a.BeginsAt (Place.after pre) →
    scan document (String.ofList (pre ++ (a.text ++ post))) =
      scan document (String.ofList (pre ++ (b.text ++ post)))

theorem scan_congr (document : DocumentId) {cs ds : List Char}
    (h : stripLines false (Text.charLines cs) = stripLines false (Text.charLines ds)) :
    scan document (String.ofList cs) = scan document (String.ofList ds) := by
  unfold scan scanGo
  rw [String.toList_ofList, String.toList_ofList, h]

/-- Bodies are hidden wherever the scanner is where the language is; so they are wherever every
raw literal before closes on its own line. -/
theorem hides_of_inStep (document : DocumentId) (pre : List Char) :
    (InStep pre → Hides document pre) ∧ (RawLiteralsClose pre → Hides document pre) := by
  have hides : InStep pre → Hides document pre := by
    intro hstep a b post hkind hbegin
    refine scan_congr document (stripLines_text_congr hkind ?_ post)
    rw [show Place.afterScan pre = Place.after pre from hstep]
    exact hbegin
  exact ⟨hides, fun hclose => hides (inStep_of_rawLiteralsClose hclose)⟩

/-- A raw literal over two lines does not matter any more after the line on which it ends. -/
theorem hides_of_inStep_newLine :
    (InStep "var s = `\n`\n\t".toList ∧ Hides ⟨"main.go"⟩ "var s = `\n`\n\t".toList) ∧
      RawLiteralsClose "var s =\n\t".toList ∧ Hides ⟨"main.go"⟩ "var s =\n\t".toList := by
  have hstep : InStep "var s = `\n`\n\t".toList := by decide +kernel
  have hclose : RawLiteralsClose "var s =\n\t".toList :=
    rawLiteralsClose_of_any (by decide +kernel)
  exact ⟨⟨hstep, (hides_of_inStep ⟨"main.go"⟩ _).1 hstep⟩,
    hclose, (hides_of_inStep ⟨"main.go"⟩ _).2 hclose⟩

/-- After a quote on the last line of a raw literal the scanner takes the code that follows for a
literal, and the next literal for code. -/
theorem not_hides_rawLines :
    ¬ Hides ⟨"main.go"⟩ "package main\n\nvar s = `\n\"` + ".toList := by
  intro h
  have hbegin : Place.after "package main\n\nvar s = `\n\"` + ".toList = .code := by
    decide +kernel
  have hsame := h (.literal '"' "panic(".toList (by decide) (by decide))
    (.literal '"' "x".toList (by decide) (by decide)) "\n".toList rfl (by rw [hbegin]; trivial)
  have hpanic : scan ⟨"main.go"⟩ (String.ofList ("package main\n\nvar s = `\n\"` + ".toList ++
      ("\"panic(\"".toList ++ "\n".toList))) = [Rule.panicCall.at_ 3] := by
    decide +kernel
  have hplain : scan ⟨"main.go"⟩ (String.ofList ("package main\n\nvar s = `\n\"` + ".toList ++
      ("\"x\"".toList ++ "\n".toList))) = [] := by
    decide +kernel
  exact absurd (hpanic.symm.trans (hsame.trans hplain)) (List.cons_ne_nil _ _)

/-! ## Raw literals over several lines -/

variable {document : DocumentId} {pre post code : List Char} {p : GoSource.Place}

/-- What is found in a document is the same with any body of the raw literal between `pre` and
`post` that has so many line ends. -/
def HidesRaw (document : DocumentId) (pre post : List Char) (feeds : Nat) : Prop :=
  ∀ a b : List Char, rawQuote ∉ a → rawQuote ∉ b → a.count '\n' = feeds → b.count '\n' = feeds →
    scan document (String.ofList (pre ++ (rawLiteral a ++ post))) =
      scan document (String.ofList (pre ++ (rawLiteral b ++ post)))

/-! ### A line that shows -/

/-- Code with no quote and no slash in it. -/
def Plain (code : List Char) : Prop := ∀ c ∈ code, isQuote c = false ∧ c ≠ '/'

instance (code : List Char) : Decidable (Plain code) := List.decidableBAll _ code

/-- Code between the end of a block comment and the beginning of a line comment. -/
def bare (code : List Char) : List Char := '*' :: '/' :: ' ' :: (code ++ ['/', '/'])

/-- What is left before the code: the asterisk and the slash too, if they end no comment. -/
def bareFront (p : GoSource.Place) : List Char := if p = .code then ['*', '/', ' '] else [' ']

theorem rawQuote_not_mem_bare (h : Plain code) : rawQuote ∉ bare code := by
  have hcode : rawQuote ∉ code := fun hin => absurd (h _ hin).1 (by decide)
  simp [bare, hcode]
  decide

theorem feed_not_mem_bare (h : '\n' ∉ code) : '\n' ∉ bare code := by
  simp [bare, h]

theorem strip_plain (h : Plain code) (t : List Char) :
    strip .code (code ++ '/' :: '/' :: t) = (code, .code) := by
  induction code with
  | nil => rfl
  | cons c r ih =>
    obtain ⟨⟨hquote, hslash⟩, hr⟩ := List.forall_mem_cons.mp h
    have hcode : Place.afterCode c = .code := by
      unfold Place.afterCode
      rw [if_neg (by simp [hquote]), if_neg hslash]
    rw [List.cons_append, strip_code_cons hslash, hcode]
    show (c :: (strip .code (r ++ '/' :: '/' :: t)).1, (strip .code _).2) = _
    rw [ih hr]

/-- The code shows whether or not a block comment was open, and nothing that follows on its line
does. -/
theorem strip_bare (hp : p = .code ∨ p = .blockComment) (h : Plain code) (t : List Char) :
    strip p.mode (bare code ++ t) = (bareFront p ++ code, .code) := by
  have hblank : strip .code (' ' :: (code ++ '/' :: '/' :: t)) = (' ' :: code, .code) := by
    rw [strip_code_cons (by decide)]
    show (' ' :: (strip .code _).1, (strip .code _).2) = _
    rw [strip_plain h]
  have htext : bare code ++ t = '*' :: '/' :: ' ' :: (code ++ '/' :: '/' :: t) := by
    simp [bare]
  rw [htext]
  rcases hp with rfl | rfl
  · show ('*' :: '/' :: (strip .code (' ' :: _)).1, (strip .code (' ' :: _)).2) = _
    rw [hblank]
    rfl
  · show strip .code (' ' :: _) = _
    rw [hblank]
    rfl

/-- After a line end, even one in a literal, any plain code can stand on a line of its own. -/
theorem exists_stripLines_bare (x post : List Char) :
    ∃ ls p ms, (p = .code ∨ p = .blockComment) ∧ ∀ code, Plain code → '\n' ∉ code →
      stripLines false (Text.charLines (x ++ '\n' :: (bare code ++ rawQuote :: post))) =
        ls ++ (bareFront p ++ code) :: ms := by
  obtain ⟨ls, p, hp, hview⟩ := exists_view_feed .code x
  have hheld : p.held = [] := by
    rcases hp with rfl | rfl <;> rfl
  obtain ⟨t, rest, hfront⟩ := exists_view_front hheld (by decide : rawQuote ≠ '\n') post
  refine ⟨ls, p, rest .code, hp, fun code hplain hfeed => ?_⟩
  have hline := hfront (bare code) (feed_not_mem_bare hfeed)
  rw [strip_bare hp hplain] at hline
  rw [stripLines_eq_view, ← hline]
  exact hview _

theorem getD_append_cons (ls ms : List (List Char)) (line : List Char) :
    (ls ++ line :: ms).getD ls.length [] = line := by
  rw [List.getD_eq_getElem?_getD, List.getElem?_append_right (Nat.le_refl _), Nat.sub_self]
  rfl

/-- The body of a raw literal with so many empty lines before the line of the code. -/
def bodyWith (n : Nat) (code : List Char) : List Char := List.replicate n '\n' ++ '\n' :: bare code

theorem rawQuote_not_mem_bodyWith (n : Nat) (h : Plain code) : rawQuote ∉ bodyWith n code := by
  have hfeed : rawQuote ≠ '\n' := by decide
  simp [bodyWith, hfeed, rawQuote_not_mem_bare h]

theorem count_bodyWith (n : Nat) (h : '\n' ∉ code) : (bodyWith n code).count '\n' = n + 1 := by
  rw [bodyWith, List.count_append, List.count_replicate_self, List.count_cons_self,
    List.count_eq_zero.mpr (feed_not_mem_bare h)]

/-- Some line of the document is reported exactly if the code there calls panic. -/
theorem exists_mem_scan_bodyWith (hgo : languageOf document.name = "go") (pre post : List Char)
    (n : Nat) :
    ∃ line p, (p = .code ∨ p = .blockComment) ∧ ∀ code, Plain code → '\n' ∉ code →
      (Rule.panicCall.at_ line ∈
          scan document (String.ofList (pre ++ (rawLiteral (bodyWith n code) ++ post))) ↔
        Text.contains "panic(" (Text.trimChars (bareFront p ++ code)) = true) := by
  obtain ⟨ls, p, ms, hp, hlines⟩ :=
    exists_stripLines_bare (pre ++ rawQuote :: List.replicate n '\n') post
  refine ⟨ls.length, p, hp, fun code hplain hfeed => ?_⟩
  have htext : pre ++ (rawLiteral (bodyWith n code) ++ post) =
      pre ++ rawQuote :: List.replicate n '\n' ++ '\n' :: (bare code ++ rawQuote :: post) := by
    simp only [rawLiteral, bodyWith, List.cons_append, List.append_assoc, List.nil_append]
  rw [mem_scan_panicCall_iff hgo, htext, strippedLines_ofList, hlines code hplain hfeed, lineAt,
    getD_append_cons]
  exact and_iff_right (by simp)

/-- A call to panic can be put on a line of a raw literal after the first, or left out there. -/
theorem not_hidesRaw (hgo : languageOf document.name = "go") (pre post : List Char) (n : Nat) :
    ¬ HidesRaw document pre post (n + 1) := by
  intro h
  have hcall : Plain "panic(".toList ∧ '\n' ∉ "panic(".toList := by decide
  have hnone : Plain [] ∧ '\n' ∉ ([] : List Char) := by decide
  obtain ⟨line, p, hp, hscan⟩ := exists_mem_scan_bodyWith hgo pre post n
  have hsame := h _ _ (rawQuote_not_mem_bodyWith n hcall.1) (rawQuote_not_mem_bodyWith n hnone.1)
    (count_bodyWith n hcall.2) (count_bodyWith n hnone.2)
  have hfound := hscan _ hcall.1 hcall.2
  rw [hsame, hscan _ hnone.1 hnone.2] at hfound
  rcases hp with rfl | rfl
  · exact absurd hfound (by decide +kernel)
  · exact absurd hfound (by decide +kernel)

/-! ### What is hidden -/

/-- A raw literal that closes on its own line is hidden. -/
theorem hidesRaw_zero (hscan : Place.afterScan pre = .code ∨ Place.afterScan pre = .slash) :
    HidesRaw document pre post 0 := by
  intro a b ha hb hfeedsA hfeedsB
  have hquote : isQuote rawQuote = true := by decide
  have hbodyA := literalBody_of_raw ha (List.count_eq_zero.mp hfeedsA)
  have hbodyB := literalBody_of_raw hb (List.count_eq_zero.mp hfeedsB)
  have hpart : (Part.literal rawQuote a hquote hbodyA).BeginsAt (Place.afterScan pre) := by
    rcases hscan with hp | hp <;> rw [hp] <;> trivial
  exact scan_congr document (stripLines_text_congr (a := .literal rawQuote a hquote hbodyA)
    (b := .literal rawQuote b hquote hbodyB) rfl hpart post)

/-- Of the first line of a raw literal nothing matters, and of its other lines what is left of them
as code. -/
theorem scan_rawLiteral_congr
    (hscan : Place.afterScan pre = .code ∨ Place.afterScan pre = .slash)
    {first first' later later' : List Char} (hfirst : rawQuote ∉ first ∧ '\n' ∉ first)
    (hfirst' : rawQuote ∉ first' ∧ '\n' ∉ first')
    (hlater : stripLines false (Text.charLines (later ++ rawQuote :: post)) =
      stripLines false (Text.charLines (later' ++ rawQuote :: post))) :
    scan document (String.ofList (pre ++ (rawLiteral (first ++ '\n' :: later) ++ post))) =
      scan document (String.ofList (pre ++ (rawLiteral (first' ++ '\n' :: later') ++ post))) := by
  have htext : ∀ first later, rawLiteral (first ++ '\n' :: later) ++ post =
      rawQuote :: (first ++ '\n' :: (later ++ rawQuote :: post)) := by
    intro first later
    simp only [rawLiteral, List.cons_append, List.append_assoc, List.nil_append]
  have hhead : ∀ x, (rawQuote :: x).head? ≠ some '\n' := fun x => by
    rw [List.head?_cons]
    decide
  refine scan_congr document ?_
  rw [stripLines_eq_view, stripLines_eq_view] at hlater ⊢
  rw [htext, htext]
  refine view_append_congr (hhead _) (hhead _) ?_
  change view (Place.afterScan pre) _ = view (Place.afterScan pre) _
  rw [view_rawLiteral hscan hfirst.1 hfirst.2, view_rawLiteral hscan hfirst'.1 hfirst'.2]
  exact congrArg _ (congrArg _ hlater)

/-- A raw literal over several lines is hidden on its first line only: its body is never hidden as
a whole, but nothing of the first line matters, and of the others what is left of them as code. -/
theorem rawLiteral_hidden_onFirstLine (document : DocumentId)
    (hgo : languageOf document.name = "go") (hstep : InStep pre)
    (hbegin : Place.after pre = .code ∨ Place.after pre = .slash) (post : List Char) :
    (∀ feeds, HidesRaw document pre post feeds ↔ feeds = 0) ∧
      ∀ first first' later later' : List Char, rawQuote ∉ first ∧ '\n' ∉ first →
        rawQuote ∉ first' ∧ '\n' ∉ first' →
        stripLines false (Text.charLines (later ++ rawQuote :: post)) =
          stripLines false (Text.charLines (later' ++ rawQuote :: post)) →
        scan document (String.ofList (pre ++ (rawLiteral (first ++ '\n' :: later) ++ post))) =
          scan document
            (String.ofList (pre ++ (rawLiteral (first' ++ '\n' :: later') ++ post))) := by
  rw [← show Place.afterScan pre = Place.after pre from hstep] at hbegin
  refine ⟨fun feeds => ?_, fun _ _ _ _ hfirst hfirst' hlater =>
    scan_rawLiteral_congr hbegin hfirst hfirst' hlater⟩
  cases feeds with
  | zero => exact iff_of_true (hidesRaw_zero hbegin) rfl
  | succ n => exact iff_of_false (not_hidesRaw hgo pre post n) (Nat.succ_ne_zero n)

/-- Of a query over two lines it does not matter what is selected. -/
theorem rawLiteral_hidden_onFirstLine_query :
    languageOf "main.go" = "go" ∧ InStep "var q = ".toList ∧
      Place.after "var q = ".toList = .code ∧
      (∀ feeds, HidesRaw ⟨"main.go"⟩ "var q = ".toList "\n".toList feeds ↔ feeds = 0) ∧
      scan ⟨"main.go"⟩ (String.ofList ("var q = ".toList ++
          (rawLiteral ("select panic(".toList ++ '\n' :: "from t // all".toList) ++
            "\n".toList))) =
        scan ⟨"main.go"⟩ (String.ofList ("var q = ".toList ++
          (rawLiteral ("select \x7b".toList ++ '\n' :: "from t // panic(".toList) ++
            "\n".toList))) := by
  have hgo : languageOf "main.go" = "go" := by decide +kernel
  have hstep : InStep "var q = ".toList := by decide +kernel
  have hbegin : Place.after "var q = ".toList = .code := by decide +kernel
  obtain ⟨hhides, hcongr⟩ :=
    rawLiteral_hidden_onFirstLine ⟨"main.go"⟩ hgo hstep (.inl hbegin) "\n".toList
  exact ⟨hgo, hstep, hbegin, hhides, hcongr _ _ _ _ (by decide) (by decide) (by decide +kernel)⟩

/-- The second line of a raw literal is reported for a call that it only quotes. -/
theorem not_hidesRaw_quotedCall :
    ¬ HidesRaw ⟨"main.go"⟩ "package main\n\nvar q = ".toList "\n".toList 2 := by
  intro h
  have hsame := h "\npanic(\n".toList "\nx\n".toList (by decide) (by decide) (by decide) (by decide)
  have hcall : scan ⟨"main.go"⟩ (String.ofList ("package main\n\nvar q = ".toList ++
      (rawLiteral "\npanic(\n".toList ++ "\n".toList))) = [Rule.panicCall.at_ 3] := by
    decide +kernel
  have hnone : scan ⟨"main.go"⟩ (String.ofList ("package main\n\nvar q = ".toList ++
      (rawLiteral "\nx\n".toList ++ "\n".toList))) = [] := by
    decide +kernel
  exact absurd (hcall.symm.trans (hsame.trans hnone)) (List.cons_ne_nil _ _)

end SmellWatch.Heuristics
