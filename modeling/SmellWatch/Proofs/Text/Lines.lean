import Mathlib.Data.List.Basic
import SmellWatch.Text.Lines
import SmellWatch.Proofs.Text.Blank
/-! How a text falls into lines: at its first line feed (`charLines_append`), or not at all
(`charLines_of_not_mem`). -/

namespace SmellWatch.Text

variable {cs u w line : List Char} {c : Char}

theorem linesFrom_append (h : '\n' ∉ u) (acc cs : List Char) :
    linesFrom acc (u ++ cs) = linesFrom (u.reverse ++ acc) cs := by
  induction u generalizing acc with
  | nil => rfl
  | cons c r ih =>
    have hc : c ≠ '\n' := fun heq => h (heq ▸ List.mem_cons_self)
    rw [List.cons_append, linesFrom, if_neg hc, ih fun hr => h (List.mem_cons_of_mem c hr)]
    simp

/-- The first line feed ends the first line. -/
theorem charLines_append (h : '\n' ∉ u) (w : List Char) :
    charLines (u ++ '\n' :: w) = dropCarriageReturn u :: charLines w := by
  unfold charLines
  rw [linesFrom_append h, linesFrom, if_pos rfl]
  simp

/-- Without a line feed there is one line. -/
theorem charLines_of_not_mem (h : '\n' ∉ u) (hne : u ≠ []) : charLines u = [u] := by
  have hlines := linesFrom_append h [] []
  rw [List.append_nil, List.append_nil] at hlines
  unfold charLines
  rw [hlines, linesFrom, if_neg (by simpa using hne), List.reverse_reverse]

/-- Only the end of a line tells whether a carriage return is dropped. -/
theorem dropCarriageReturn_append (hne : w ≠ []) (u : List Char) :
    dropCarriageReturn (u ++ w) = u ++ dropCarriageReturn w := by
  unfold dropCarriageReturn
  rw [List.getLast?_append_of_ne_nil u hne]
  split
  · exact List.dropLast_append_of_ne_nil hne
  · rfl

/-- A line is its own, or has a carriage return after it. -/
theorem eq_or_eq_dropCarriageReturn (line : List Char) :
    dropCarriageReturn line = line ∨ line = dropCarriageReturn line ++ ['\r'] := by
  unfold dropCarriageReturn
  split
  · rename_i h
    exact .inr (List.dropLast_append_getLast? _ h).symm
  · exact .inl rfl

/-- A text that does not start with a blank has a first line with something on it. -/
theorem firstLine_ne_empty (hc : isBlank c = false) {s : String} (h : s.toList = c :: cs) :
    firstLine s ≠ "" := by
  have hfeed : c ≠ '\n' := by
    rintro rfl
    exact absurd hc (by decide)
  have hline : ∃ r rest, charLines (c :: cs) = r :: rest ∧ r ≠ [] := by
    by_cases hmem : '\n' ∈ cs
    · obtain ⟨u, w, rfl, hu⟩ := List.eq_append_cons_of_mem hmem
      have hlines := charLines_append (u := c :: u)
        (fun hin => (List.mem_cons.mp hin).elim (hfeed ·.symm) hu) w
      refine ⟨_, _, hlines, fun hnil => ?_⟩
      rcases eq_or_eq_dropCarriageReturn (c :: u) with heq | heq
      · rw [heq] at hnil
        cases hnil
      -- a carriage return on its own would be a blank
      · rw [hnil] at heq
        obtain rfl : c = '\r' := (List.cons.inj heq).1
        exact absurd hc (by decide)
    · have hno : '\n' ∉ c :: cs := fun hin => (List.mem_cons.mp hin).elim (hfeed ·.symm) hmem
      exact ⟨_, [], charLines_of_not_mem hno (by simp), by simp⟩
  obtain ⟨r, rest, hlines, hr⟩ := hline
  unfold firstLine lines
  rw [h, hlines]
  intro hempty
  exact hr (by simpa using congrArg String.toList hempty)

end SmellWatch.Text
