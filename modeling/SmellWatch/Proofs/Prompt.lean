import Mathlib.Order.Bounds.Basic
import SmellWatch.Proofs.ModelAnswer.Places
import SmellWatch.Proofs.Text.Lines
/-! Which lines of a document a question shows.

Lines are shown as long as they fit: as long as the bytes of the lines before, each with one more
for its end, and those of the line itself are within the limit (`Fits`).  The rows of a question
are the most lines that fit (`isGreatest_shownCount`), and behind fewer rows than lines stands the
mark.  An end of a line has one byte at least, so what is counted in front of a line is never more
than what the document has there, and a document within the limit is shown as a whole
(`fits_length`).  `question_shows` says all of this. -/

namespace SmellWatch

/-! ## Bytes of lines -/

namespace Text

variable {acc cs line : List Char} {i : Nat}

/-- The bytes of some lines, each with one more for its end. -/
def endedBytes (ls : List (List Char)) : Nat := (ls.map fun line => String.utf8Len line + 1).sum

theorem utf8Len_dropCarriageReturn_le (line : List Char) :
    String.utf8Len (dropCarriageReturn line) ≤ String.utf8Len line := by
  rcases eq_or_eq_dropCarriageReturn line with h | h
  · rw [h]
  · have hsize := congrArg String.utf8Len h
    rw [String.utf8Len_append] at hsize
    omega

/-- A line and those before it, with their ends, have no more bytes than the text. -/
theorem endedBytes_take_linesFrom (h : (linesFrom acc cs)[i]? = some line) :
    endedBytes ((linesFrom acc cs).take i) + String.utf8Len line ≤
      String.utf8Len acc + String.utf8Len cs := by
  induction cs generalizing acc i with
  | nil =>
    unfold linesFrom at h ⊢
    split at h
    · cases h
    · rename_i hacc
      obtain ⟨rfl, hline⟩ : i = 0 ∧ acc.reverse = line := by
        cases i with
        | zero => exact ⟨rfl, Option.some.inj h⟩
        | succ i => cases h
      rw [if_neg hacc, ← hline, String.utf8Len_reverse]
      show 0 + _ ≤ _
      omega
  | cons c r ih =>
    rw [String.utf8Len_cons]
    have hsize : 1 ≤ c.utf8Size := c.utf8Size_pos
    by_cases hc : c = '\n'
    · rw [linesFrom, if_pos hc] at h ⊢
      have hdrop := utf8Len_dropCarriageReturn_le acc.reverse
      rw [String.utf8Len_reverse] at hdrop
      cases i with
      | zero =>
        obtain rfl : dropCarriageReturn acc.reverse = line := Option.some.inj h
        show 0 + _ ≤ _
        omega
      | succ i =>
        have hrest := ih h
        rw [List.take_succ_cons]
        show (String.utf8Len (dropCarriageReturn acc.reverse) + 1 +
          endedBytes ((linesFrom [] r).take i)) + _ ≤ _
        have hnone : String.utf8Len [] = 0 := rfl
        omega
    · rw [linesFrom, if_neg hc] at h ⊢
      have hrest := ih h
      rw [String.utf8Len_cons] at hrest
      omega

end Text

namespace Prompt

variable {used k : Nat} {line : String} {ls : List String} {content : String}

/-- The bytes of the first `i` lines, each with one more for its end. -/
def bytesBefore (ls : List String) (i : Nat) : Nat :=
  ((ls.take i).map fun line => line.utf8ByteSize + 1).sum

/-- So many lines fit behind what is used already. -/
def FitsBehind (used : Nat) (ls : List String) (k : Nat) : Prop :=
  k ≤ ls.length ∧ ∀ i line, i < k → ls[i]? = some line →
    used + bytesBefore ls i + line.utf8ByteSize ≤ contentLimit

/-- So many lines fit: each has its last byte within the limit. -/
def Fits (ls : List String) (k : Nat) : Prop :=
  k ≤ ls.length ∧ ∀ i line, i < k → ls[i]? = some line →
    bytesBefore ls i + line.utf8ByteSize ≤ contentLimit

theorem fitsBehind_zero : FitsBehind 0 ls k ↔ Fits ls k := by
  unfold FitsBehind Fits
  simp only [Nat.zero_add]

theorem fitsBehind_nothing (used : Nat) (ls : List String) : FitsBehind used ls 0 :=
  ⟨Nat.zero_le _, fun _ _ hi => absurd hi (Nat.not_lt_zero _)⟩

theorem bytesBefore_cons (line : String) (ls : List String) (i : Nat) :
    bytesBefore (line :: ls) (i + 1) = line.utf8ByteSize + 1 + bytesBefore ls i := rfl

/-- A line and so many behind it fit if it fits, and they do behind it. -/
theorem fitsBehind_cons :
    FitsBehind used (line :: ls) (k + 1) ↔
      used + line.utf8ByteSize ≤ contentLimit ∧
        FitsBehind (used + line.utf8ByteSize + 1) ls k := by
  unfold FitsBehind
  constructor
  · rintro ⟨hlength, hfit⟩
    refine ⟨hfit 0 line (Nat.succ_pos k) rfl, Nat.le_of_succ_le_succ hlength, ?_⟩
    intro i x hi hx
    have hnext := hfit (i + 1) x (Nat.succ_lt_succ hi) hx
    rw [bytesBefore_cons] at hnext
    omega
  · rintro ⟨hfirst, hlength, hfit⟩
    refine ⟨Nat.succ_le_succ hlength, ?_⟩
    intro i x hi hx
    cases i with
    | zero =>
      obtain rfl : line = x := Option.some.inj hx
      exact hfirst
    | succ i =>
      have hnext := hfit i x (Nat.lt_of_succ_lt_succ hi) hx
      rw [bytesBefore_cons]
      omega

/-- As many lines are shown as fit. -/
theorem isGreatest_shownCount (used : Nat) (ls : List String) :
    IsGreatest {k | FitsBehind used ls k} (shownCount used ls) := by
  induction ls generalizing used with
  | nil => exact ⟨fitsBehind_nothing used [], fun k hk => hk.1⟩
  | cons line r ih =>
    unfold shownCount
    by_cases hfull : contentLimit < used + line.utf8ByteSize
    · rw [if_pos hfull]
      refine ⟨fitsBehind_nothing used _, ?_⟩
      intro k hk
      cases k with
      | zero => exact Nat.le_refl 0
      | succ k => exact absurd (fitsBehind_cons.mp hk).1 (Nat.not_le_of_lt hfull)
    · rw [if_neg hfull]
      obtain ⟨hfit, hmost⟩ := ih (used + line.utf8ByteSize + 1)
      refine ⟨fitsBehind_cons.mpr ⟨Nat.le_of_not_lt hfull, hfit⟩, ?_⟩
      intro k hk
      cases k with
      | zero => exact Nat.zero_le _
      | succ k => exact Nat.succ_le_succ (hmost (fitsBehind_cons.mp hk).2)

/-- All lines of a document within the limit fit, whatever the ends of its lines are. -/
theorem fits_length (h : content.utf8ByteSize ≤ contentLimit) :
    Fits (Text.lines content) (Text.lines content).length := by
  refine ⟨Nat.le_refl _, ?_⟩
  intro i line _ hline
  unfold Text.lines at hline ⊢
  obtain ⟨chars, hchars, rfl⟩ := Option.map_eq_some_iff.mp (List.getElem?_map ▸ hline)
  have hbytes := Text.endedBytes_take_linesFrom hchars
  have hcontent : String.utf8Len content.toList = content.utf8ByteSize := by
    rw [← String.utf8ByteSize_ofList, String.ofList_toList]
  have hbefore : bytesBefore ((Text.charLines content.toList).map String.ofList) i =
      Text.endedBytes ((Text.charLines content.toList).take i) := by
    unfold bytesBefore Text.endedBytes
    rw [← List.map_take, List.map_map]
    simp only [Function.comp_def, String.utf8ByteSize_ofList]
  rw [hbefore, String.utf8ByteSize_ofList]
  have hnone : String.utf8Len [] = 0 := rfl
  unfold Text.charLines
  omega

/-- The rows of a question are the first lines of the document, each complete and with its number,
and they are the most lines that fit.  Behind them is the mark exactly if there are more lines, and
there are none if the document is within the limit. -/
theorem question_shows (r : AnalysisRequest) :
    ∃ rows, NumbersLines r rows ∧ IsGreatest {k | Fits (Text.lines r.content) k} rows.length ∧
      (r.content.utf8ByteSize ≤ contentLimit → rows.length = (Text.lines r.content).length) := by
  have hmost : IsGreatest {k | Fits (Text.lines r.content) k} (shownRows r).length := by
    have hshown := isGreatest_shownCount 0 (Text.lines r.content)
    simp only [fitsBehind_zero] at hshown
    rw [length_shownRows]
    exact hshown
  refine ⟨shownRows r, numbersLines_shownRows r, hmost, ?_⟩
  intro hsmall
  exact Nat.le_antisymm hmost.1.1 (hmost.2 (fits_length hsmall))

/-- A document with both ends of lines, an empty line, and none at the end. -/
def mixedEnds : AnalysisRequest := .ofDocument ⟨"main.go"⟩ "package main\r\n\nfunc é() {}" []

theorem question_shows_mixedEnds :
    mixedEnds.content.utf8ByteSize ≤ contentLimit ∧
      Text.lines mixedEnds.content = ["package main", "", "func é() {}"] ∧
      ∃ rows, NumbersLines mixedEnds rows ∧ rows.length = 3 := by
  have hlines : Text.lines mixedEnds.content = ["package main", "", "func é() {}"] := by
    decide +kernel
  have hsmall : mixedEnds.content.utf8ByteSize ≤ contentLimit := by decide +kernel
  obtain ⟨rows, hrows, -, hwhole⟩ := question_shows mixedEnds
  refine ⟨hsmall, hlines, rows, hrows, ?_⟩
  rw [hwhole hsmall, hlines]
  rfl

end Prompt

end SmellWatch
