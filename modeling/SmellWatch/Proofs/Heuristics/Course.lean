import SmellWatch.Proofs.Heuristics.Line
/-! The lines of a text, one after the other.

What is known before line `n` is `stateBefore codes n`, and its depth is that of all the braces
before (`depth_stateBefore`). A finding of a scan was made before the end of the text
(`mem_scan_iff`), and one of a given rule on one of the lines (`mem_told_iff`). -/

namespace SmellWatch.Heuristics

open GoSource

variable {r : Rule} {n : Nat} {codes : List (List Char)} {f : Finding}

/-- The lines that are read. -/
def strippedLines (content : String) : List (List Char) :=
  stripLines false (Text.charLines content.toList)

theorem strippedLines_ofList (cs : List Char) :
    strippedLines (String.ofList cs) = stripLines false (Text.charLines cs) := by
  rw [strippedLines, String.toList_ofList]

/-- A line without the blanks around it; nothing after the last line. -/
def lineAt (codes : List (List Char)) (n : Nat) : List Char := Text.trimChars (codes.getD n [])

/-- The depth of braces before a line. -/
def depthBefore (codes : List (List Char)) (n : Nat) : Nat := (codes.take n).foldl depthAfter 0

/-- The depth of braces at the end of a line. -/
def depthAtEnd (codes : List (List Char)) (n : Nat) : Nat := depthBefore codes (n + 1)

/-- What is known before a line. -/
def stateBefore (codes : List (List Char)) : Nat → State
  | 0 => .start
  | n + 1 => scanLine (stateBefore codes n) n (codes.getD n [])

theorem depthAtEnd_eq (codes : List (List Char)) (n : Nat) :
    depthAtEnd codes n = depthAfter (depthBefore codes n) (codes.getD n []) := by
  unfold depthAtEnd depthBefore
  rw [List.take_add_one, List.foldl_append, List.getD_eq_getElem?_getD]
  cases codes[n]? <;> rfl

theorem depth_stateBefore (codes : List (List Char)) (n : Nat) :
    (stateBefore codes n).depth = depthBefore codes n := by
  induction n with
  | zero => rfl
  | succ n ih =>
    show _ = depthAtEnd codes n
    rw [stateBefore, scanLine_eq, ih, depthAtEnd_eq]

theorem scanLines_append (s : State) (line : Nat) (codes : List (List Char)) (code : List Char) :
    scanLines s line (codes ++ [code]) = scanLine (scanLines s line codes) (line + codes.length)
      code := by
  induction codes generalizing s line with
  | nil => rfl
  | cons c r ih =>
    rw [List.cons_append, scanLines, scanLines, ih, List.length_cons]
    congr 1
    omega

theorem scanLines_take (codes : List (List Char)) (hn : n ≤ codes.length) :
    scanLines .start 0 (codes.take n) = stateBefore codes n := by
  induction n with
  | zero => rfl
  | succ n ih =>
    have hlt : n < codes.length := by omega
    rw [List.take_succ_eq_append_getElem hlt, scanLines_append, ih (by omega), stateBefore,
      List.length_take_of_le (by omega), Nat.zero_add, List.getD_eq_getElem?_getD,
      List.getElem?_eq_getElem hlt, Option.getD_some]

theorem mem_scan_iff_scanLines (document : DocumentId) (content : String) :
    f ∈ scan document content ↔ languageOf document.name = "go" ∧
      f ∈ (scanLines .start 0 (strippedLines content)).findings := by
  unfold scan
  split
  · rename_i hgo
    unfold scanGo
    rw [List.mem_mergeSort]
    exact (and_iff_right hgo).symm
  · rename_i hother
    exact iff_of_false List.not_mem_nil fun h => hother h.1

theorem scanLines_eq (codes : List (List Char)) :
    scanLines .start 0 codes = stateBefore codes codes.length := by
  rw [← scanLines_take codes (Nat.le_refl _), List.take_length]

/-- A finding of a scan was made before the end of the text. -/
theorem mem_scan_iff (document : DocumentId) (content : String) :
    f ∈ scan document content ↔ languageOf document.name = "go" ∧
      f ∈ (stateBefore (strippedLines content) (strippedLines content).length).findings := by
  rw [mem_scan_iff_scanLines, scanLines_eq]

/-- What was found of a rule was added on one of the lines. -/
theorem mem_told_iff {new : Nat → List Finding} (hnew : ∀ m,
    told r (stateBefore codes (m + 1)) = told r (stateBefore codes m) ++ new m) :
    f ∈ told r (stateBefore codes n) ↔ ∃ m < n, f ∈ new m := by
  induction n with
  | zero => simp [told, stateBefore, State.start]
  | succ n ih =>
    rw [hnew, List.mem_append, ih]
    constructor
    · rintro (⟨m, hm, hf⟩ | hf)
      · exact ⟨m, by omega, hf⟩
      · exact ⟨n, by omega, hf⟩
    · rintro ⟨m, hm, hf⟩
      rcases Nat.lt_succ_iff_lt_or_eq.mp hm with hlt | rfl
      · exact .inl ⟨m, hlt, hf⟩
      · exact .inr hf

theorem mem_scan_and_isSource_iff {document : DocumentId} {content : String}
    (hgo : languageOf document.name = "go") (r : Rule) :
    (f ∈ scan document content ∧ r.isSource f = true) ↔
      f ∈ told r (stateBefore (strippedLines content) (strippedLines content).length) := by
  rw [mem_scan_iff, and_iff_right hgo, told, List.mem_filter]

/-- Every line is reported on which panic is called. -/
theorem mem_scan_panicCall_iff {document : DocumentId} {content : String}
    (hgo : languageOf document.name = "go") :
    Rule.panicCall.at_ n ∈ scan document content ↔ n < (strippedLines content).length ∧
      Text.contains "panic(" (lineAt (strippedLines content) n) = true := by
  have hnew : ∀ m, told .panicCall (stateBefore (strippedLines content) (m + 1)) =
      told .panicCall (stateBefore (strippedLines content) m) ++
        if Text.contains "panic(" (lineAt (strippedLines content) m) then [Rule.panicCall.at_ m]
        else [] := fun m => told_panicCall_scanLine _ _ _
  have hsource : Rule.panicCall.isSource (Rule.panicCall.at_ n) = true := by simp
  rw [← and_iff_left (a := _ ∈ scan _ _) hsource, mem_scan_and_isSource_iff hgo, mem_told_iff hnew]
  constructor
  · rintro ⟨m, hm, hmem⟩
    split at hmem
    · rename_i hpanic
      obtain rfl : n = m := congrArg startLine (List.mem_singleton.mp hmem)
      exact ⟨hm, hpanic⟩
    · cases hmem
  · rintro ⟨hn, hpanic⟩
    refine ⟨n, hn, ?_⟩
    rw [if_pos hpanic]
    exact List.mem_singleton_self _

end SmellWatch.Heuristics
