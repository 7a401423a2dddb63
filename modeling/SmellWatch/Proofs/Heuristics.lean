import SmellWatch.Heuristics.Scan
/-! What the heuristics find is what their rules say.

The scanner reports through `Rule.at_` alone, line after line (`ruled_scanLine`); so every
finding of a scan is one of a rule (`ruled_scan`), and no other text can appear among
them. -/

namespace SmellWatch.Heuristics

/-- A finding is one of a rule, on some line and perhaps with a message of its own. -/
def Ruled (f : Finding) : Prop := ∃ (r : Rule) (line : Nat) (text : Option String),
  f = r.at_ line text

/-- All that was found so far is of rules. -/
def State.Ruled (s : State) : Prop := ∀ f ∈ s.findings, Heuristics.Ruled f

variable {s s' : State} (line : Nat) (code trimmed : List Char)

theorem ruled_at (r : Rule) (line : Nat) (text : Option String) : Ruled (r.at_ line text) :=
  ⟨r, line, text, rfl⟩

namespace State.Ruled

theorem of_findings (h : s.Ruled) (hs : s'.findings = s.findings) : s'.Ruled := by
  intro f hf
  rw [hs] at hf
  exact h f hf

theorem append (h : s.Ruled) {fs : List Finding} (hfs : ∀ f ∈ fs, Heuristics.Ruled f)
    (hs : s'.findings = s.findings ++ fs) : s'.Ruled := by
  intro f hf
  rw [hs] at hf
  rcases List.mem_append.mp hf with hf | hf
  · exact h f hf
  · exact hfs f hf

theorem report (h : s.Ruled) (r : Rule) (line : Nat) : (s.report r line).Ruled := by
  refine h.append (fun f hf => ?_) rfl
  rw [List.mem_singleton.mp hf]
  exact ruled_at r line none

theorem reportIf (h : s.Ruled) (condition : Bool) (r : Rule) (line : Nat) :
    (s.reportIf condition r line).Ruled := by
  unfold State.reportIf
  split
  · exact h.report r line
  · exact h

end State.Ruled

/-! ## Parts of a line -/

theorem ruled_scanVariables (h : s.Ruled) : (scanVariables line code trimmed s).Ruled := by
  unfold scanVariables
  split
  · exact h.of_findings rfl
  · split
    · exact h.of_findings rfl
    · exact h.reportIf _ _ _

theorem ruled_scanFunctionHead (h : s.Ruled) : (scanFunctionHead line trimmed s).Ruled := by
  unfold scanFunctionHead
  split
  · exact h
  · rename_i name _
    have hreported := (h.reportIf (name = "init" && Text.contains "init()" trimmed)
      .initFunction line).reportIf (Text.contains "interface\x7b\x7d" trimmed) .emptyInterface line
    dsimp only
    split
    · exact hreported.of_findings rfl
    · exact hreported

theorem ruled_scanStatements (h : s.Ruled) : (scanStatements line code trimmed s).Ruled :=
  ((h.reportIf _ _ _).reportIf _ _ _).reportIf _ _ _

theorem ruled_scanGoroutines (h : s.Ruled) : (scanGoroutines line trimmed s).Ruled := by
  unfold scanGoroutines
  dsimp only
  split <;> exact h.of_findings rfl

theorem ruled_scanNesting (h : s.Ruled) : (scanNesting line s).Ruled := by
  unfold scanNesting
  split
  · split
    · exact (h.report .deepNesting line).of_findings rfl
    · exact h
  · exact h

theorem ruled_closeGoroutines (depth : Nat) (gs : List Goroutine) :
    ∀ f ∈ (closeGoroutines depth gs).1, Ruled f := by
  induction gs with
  | nil => exact fun f hf => absurd hf List.not_mem_nil
  | cons g r ih =>
    unfold closeGoroutines
    split
    · exact fun f hf => absurd hf List.not_mem_nil
    · dsimp only
      split
      · split
        · exact ih
        · intro f hf
          rcases List.mem_cons.mp hf with rfl | hf
          · exact ruled_at _ _ _
          · exact ih f hf
      · exact ih

theorem ruled_scanClosedGoroutines (h : s.Ruled) : (scanClosedGoroutines s).Ruled :=
  h.append (ruled_closeGoroutines s.depth s.goroutines) rfl

theorem ruled_scanFunctionEnd (h : s.Ruled) : (scanFunctionEnd line s).Ruled := by
  unfold scanFunctionEnd
  split
  · split
    · dsimp only
      split
      · refine h.append (fun f hf => ?_) rfl
        rw [List.mem_singleton.mp hf]
        exact ruled_at _ _ _
      · exact h.of_findings rfl
    · exact h
  · exact h

/-! ## Lines and files -/

theorem ruled_scanLine (h : s.Ruled) : (scanLine s line code).Ruled := by
  have hhead : (if s.depth = 0 then
      scanFunctionHead line (Text.trimChars code) (scanVariables line code (Text.trimChars code) s)
      else s).Ruled := by
    split
    · exact ruled_scanFunctionHead _ _ (ruled_scanVariables _ _ _ h)
    · exact h
  have hopened := ruled_scanGoroutines line (Text.trimChars code)
    (ruled_scanStatements line code (Text.trimChars code) hhead)
  unfold scanLine
  exact ruled_scanFunctionEnd line (ruled_scanClosedGoroutines (ruled_scanNesting line
    (hopened.of_findings rfl)))

theorem ruled_scanLines (codes : List (List Char)) (h : s.Ruled) :
    (scanLines s line codes).Ruled := by
  induction codes generalizing s line with
  | nil => exact h
  | cons code r ih => exact ih (line + 1) (ruled_scanLine line code h)

/-- Every finding of a scan is one of a rule. -/
theorem ruled_scan (document : DocumentId) (content : String) :
    ∀ f ∈ scan document content, Ruled f := by
  intro f hf
  unfold scan at hf
  split at hf
  · unfold scanGo at hf
    have hstart : State.Ruled .start := fun f hf => absurd hf List.not_mem_nil
    exact ruled_scanLines 0 _ hstart f (List.mem_mergeSort.mp hf)
  · exact absurd hf List.not_mem_nil

end SmellWatch.Heuristics
