import SmellWatch.Proofs.GoSource.Part
/-! Raw literals over several lines, as the scanner reads them.

The scanner leaves a raw literal at the end of its first line and reads its other lines as code. Of
the first line of its body nothing is left (`view_rawLiteral`). Any other line begins in code or in
a block comment, whatever stands before it (`exists_view_feed`), and its front matters to the lines
behind it by the mode it leaves only (`exists_view_front`). -/

namespace SmellWatch.GoSource

open Text

variable {p : Place} {first body w : List Char}

def rawQuote : Char := Char.ofNat 0x60

/-- A raw literal, with its quotes. -/
def rawLiteral (body : List Char) : List Char := rawQuote :: (body ++ [rawQuote])

/-! ## The first line -/

theorem strip_rawBody (h : rawQuote ∉ w) :
    strip (.literal rawQuote) w = ([], .literal rawQuote) := by
  induction w with
  | nil => rfl
  | cons c r ih =>
    have hc : c ≠ rawQuote := fun heq => h (heq ▸ List.mem_cons_self)
    have hescape : ¬ (c = '\\' ∧ isRaw rawQuote = false) := fun hraw => absurd hraw.2 (by decide)
    rw [strip_literal_cons hescape, if_neg hc, ih fun hr => h (List.mem_cons_of_mem c hr)]

theorem mem_of_mem_dropCarriageReturn {c : Char} (h : c ∈ dropCarriageReturn w) : c ∈ w := by
  unfold dropCarriageReturn at h
  split at h
  · exact List.mem_of_mem_dropLast h
  · exact h

/-- Of a raw literal the scanner leaves the opening quote on its first line, and reads what comes
after this line as code. -/
theorem view_rawLiteral (hp : p = .code ∨ p = .slash) (hquote : rawQuote ∉ first)
    (hfeed : '\n' ∉ first) (rest : List Char) :
    view p (rawQuote :: (first ++ '\n' :: rest)) =
      onFirst (p.leaves rawQuote) ([] :: view .code rest) := by
  have hend : ¬ EndsLine rawQuote (first ++ '\n' :: rest) := fun h => absurd h.1 (by decide)
  have hdrop : rawQuote ∉ dropCarriageReturn first := fun h =>
    hquote (mem_of_mem_dropCarriageReturn h)
  rw [view_cons p (by decide) hend, next_quote (by decide) hp, view_append _ hfeed]
  show onFirst _ ((strip (.literal rawQuote) (dropCarriageReturn first)).1 :: view
    (if (strip (.literal rawQuote) (dropCarriageReturn first)).2 = .comment then .blockComment
      else .code) rest) = _
  rw [strip_rawBody hdrop]
  rfl

/-- Without a line end in it, the body of a raw literal is that of a literal on its line. -/
theorem literalBody_of_raw (hquote : rawQuote ∉ body) (hfeed : '\n' ∉ body) :
    LiteralBody rawQuote body := by
  induction body with
  | nil => exact .nil
  | cons c r ih =>
    rw [List.mem_cons, not_or] at hquote hfeed
    exact .plain (Ne.symm hfeed.1) (Ne.symm hquote.1) (fun hraw => absurd hraw.2 (by decide))
      (ih hquote.2 hfeed.2)

/-! ## The other lines -/

/-- After a line end the scanner is in code or in a block comment, whatever follows. -/
theorem exists_view_feed (p : Place) (x : List Char) :
    ∃ ls p', (p' = .code ∨ p' = .blockComment) ∧
      ∀ y, view p (x ++ '\n' :: y) = ls ++ view p' y := by
  by_cases hmem : '\n' ∈ x
  · obtain ⟨u, v, hx, hu⟩ := List.eq_append_cons_of_mem hmem
    have hlt : v.length < x.length := by
      rw [hx, List.length_append, List.length_cons]
      omega
    obtain ⟨ls, p', hp', hview⟩ := exists_view_feed
      (if (strip p.mode (p.held ++ dropCarriageReturn u)).2 = .comment then .blockComment
        else .code) v
    refine ⟨(strip p.mode (p.held ++ dropCarriageReturn u)).1 :: ls, p', hp', fun y => ?_⟩
    rw [hx, List.append_assoc, List.cons_append, view_append p hu, hview, List.cons_append]
  · refine ⟨[_], _, ?_, view_append p hmem⟩
    split
    · exact .inr rfl
    · exact .inl rfl
termination_by x.length

/-- The front of a line matters for that line, and for the next lines by the mode it leaves. -/
theorem exists_view_front {c : Char} (hheld : p.held = []) (hc : c ≠ '\n') (y : List Char) :
    ∃ (t : List Char) (rest : Mode → List (List Char)), ∀ w, '\n' ∉ w →
      view p (w ++ c :: y) = (strip p.mode (w ++ t)).1 :: rest (strip p.mode (w ++ t)).2 := by
  by_cases hmem : '\n' ∈ c :: y
  · obtain ⟨u, z, hcy, hu⟩ := List.eq_append_cons_of_mem hmem
    have hne : u ≠ [] := by
      rintro rfl
      exact hc (List.cons.inj hcy).1
    refine ⟨dropCarriageReturn u,
      fun m => view (if m = .comment then .blockComment else .code) z, fun w hw => ?_⟩
    rw [hcy, ← List.append_assoc, view_append p (by simp [hw, hu]), hheld, List.nil_append,
      dropCarriageReturn_append hne]
  · refine ⟨c :: y, fun _ => [], fun w hw => ?_⟩
    have hfeed : '\n' ∉ w ++ c :: y := fun h => (List.mem_append.mp h).elim hw hmem
    rw [view_of_not_mem hfeed (by simp), hheld, List.nil_append]

end SmellWatch.GoSource
