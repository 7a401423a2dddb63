import Mathlib.Data.List.Basic
import SmellWatch.Proofs.Decimal.Text
import SmellWatch.Proofs.Heuristics
/-! What one line adds to a scan.

A line is looked at for what can be seen on it (`looked`), it may open a function or a goroutine
(`functionOn`, `goroutinesOn`), its braces count, and it may close what is open: `scanLine_eq` says
all of it. Six rules report the line that they look at (`adds_looked`); of each of the other three
the line adds what one function of the state says (`told_scanLine`). -/

namespace SmellWatch.Heuristics

open Decimal GoSource

variable {s s' s'' : State} {r r' : Rule} {rs rs' : List Rule} {line line' : Nat}
  {code trimmed : List Char} {text : Option String}

/-! ## Ids -/

theorem startLine_at : startLine (r.at_ line text) = line := rfl

namespace Rule

/-- The id of the rule's finding on a line. -/
def idAt (r : Rule) (line : Nat) : String := s!"{r.code}:{line + 1}"

theorem code_injective (h : r.code = r'.code) : r = r' := by
  revert h
  cases r <;> cases r' <;> decide

theorem length_code (r : Rule) : r.code.toList.length = 5 := by
  cases r <;> rfl

theorem toList_idAt (r : Rule) (line : Nat) :
    (r.idAt line).toList = r.code.toList ++ ':' :: Nat.toDigits 10 (line + 1) := by
  show (r.code ++ ":" ++ toString (line + 1)).toList = _
  rw [String.toList_append, String.toList_append, toList_toString, List.append_assoc]
  rfl

/-- An id tells the rule and the line. -/
theorem idAt_inj (h : r.idAt line = r'.idAt line') : r = r' ∧ line = line' := by
  have hchars := congrArg String.toList h
  rw [toList_idAt, toList_idAt] at hchars
  obtain ⟨hcode, hrest⟩ := List.append_inj hchars (by rw [length_code, length_code])
  have hvalues := congrArg digitsValue (List.cons.inj hrest).2
  rw [digitsValue_toDigits, digitsValue_toDigits] at hvalues
  exact ⟨code_injective (String.toList_inj.mp hcode), by omega⟩

/-- The finding has the id of the rule on its line. -/
def isSource (r : Rule) (f : Finding) : Bool := f.id = r.idAt (startLine f)

@[simp]
theorem isSource_at : r.isSource (r'.at_ line text) = decide (r = r') := by
  by_cases h : r = r'
  · subst h
    rw [decide_eq_true rfl]
    exact decide_eq_true (rfl : r.idAt line = r.idAt line)
  · rw [decide_eq_false h]
    refine decide_eq_false fun hid => h ?_
    exact (idAt_inj (show r'.idAt line = r.idAt line from hid)).1.symm

end Rule

/-- What was found of a rule. -/
def told (r : Rule) (s : State) : List Finding := s.findings.filter r.isSource

/-! ## What can be seen on a line -/

/-- Some of the rules report the line, and nothing else is new but which function is open. -/
structure Adds (line : Nat) (rs : List Rule) (s s' : State) : Prop where
  depth : s'.depth = s.depth
  goroutines : s'.goroutines = s.goroutines
  found : ∃ seen : List Rule, seen.Sublist rs ∧ s'.findings = s.findings ++ seen.map (·.at_ line)

namespace Adds

theorem nothing (hdepth : s'.depth = s.depth) (hgoroutines : s'.goroutines = s.goroutines)
    (hfindings : s'.findings = s.findings) : Adds line rs s s' :=
  ⟨hdepth, hgoroutines, [], List.nil_sublist rs, by rw [hfindings, List.map_nil, List.append_nil]⟩

theorem trans (h : Adds line rs s s') (h' : Adds line rs' s' s'') :
    Adds line (rs ++ rs') s s'' := by
  obtain ⟨seen, hsub, hfound⟩ := h.found
  obtain ⟨seen', hsub', hfound'⟩ := h'.found
  refine ⟨h'.depth.trans h.depth, h'.goroutines.trans h.goroutines, seen ++ seen',
    hsub.append hsub', ?_⟩
  rw [hfound', hfound, List.map_append, List.append_assoc]

theorem reportIf (condition : Bool) (r : Rule) (line : Nat) :
    Adds line [r] s (s.reportIf condition r line) := by
  unfold State.reportIf
  split
  · exact ⟨rfl, rfl, [r], List.Sublist.refl _, rfl⟩
  · exact nothing rfl rfl rfl

/-- Nothing is new of the other rules. -/
theorem told_eq (h : Adds line rs s s') (hr : r ∉ rs) : told r s' = told r s := by
  obtain ⟨seen, hsub, hfound⟩ := h.found
  have hnone : (seen.map (·.at_ line)).filter r.isSource = [] := by
    refine List.filter_eq_nil_iff.mpr fun f hf => ?_
    obtain ⟨r', hr', rfl⟩ := List.mem_map.mp hf
    have hne : r ≠ r' := fun heq => hr (heq ▸ hsub.subset hr')
    simp [hne]
  unfold told
  rw [hfound, List.filter_append, hnone, List.append_nil]

end Adds

theorem function_reportIf (condition : Bool) :
    (s.reportIf condition r line).function = s.function := by
  unfold State.reportIf
  split <;> rfl

theorem adds_scanVariables (line : Nat) (code trimmed : List Char) (s : State) :
    Adds line [.exportedVar] s (scanVariables line code trimmed s) := by
  unfold scanVariables
  split
  · exact .nothing rfl rfl rfl
  · split
    · exact .nothing rfl rfl rfl
    · exact .reportIf _ _ _

theorem function_scanVariables : (scanVariables line code trimmed s).function = s.function := by
  unfold scanVariables
  split
  · rfl
  · split
    · rfl
    · exact function_reportIf _

theorem adds_scanFunctionHead (line : Nat) (trimmed : List Char) (s : State) :
    Adds line [.initFunction, .emptyInterface] s (scanFunctionHead line trimmed s) := by
  unfold scanFunctionHead
  split
  · exact .nothing rfl rfl rfl
  · rename_i name _
    have hreports := (Adds.reportIf (s := s) (name = "init" && Text.contains "init()" trimmed)
      .initFunction line).trans
        (.reportIf (Text.contains "interface\x7b\x7d" trimmed) .emptyInterface line)
    dsimp only
    split
    · exact ⟨hreports.depth, hreports.goroutines, hreports.found⟩
    · exact hreports

/-- The line is the head of a function whose body goes on after it. -/
def headOf? (line : Nat) (trimmed : List Char) : Option OpenFunction :=
  if trimmed.getLast? = some '{' then
    (functionName? trimmed).map (⟨·, line, hasNamedResults trimmed, false⟩)
  else none

theorem function_scanFunctionHead :
    (scanFunctionHead line trimmed s).function = (headOf? line trimmed).or s.function := by
  unfold scanFunctionHead headOf?
  cases hname : functionName? trimmed with
  | none =>
    dsimp only
    split <;> rfl
  | some name =>
    dsimp only
    split
    · rfl
    · rw [function_reportIf, function_reportIf]
      rfl

theorem adds_scanStatements (line : Nat) (code trimmed : List Char) (s : State) :
    Adds line [.ignoredError, .panicCall, .nakedReturn] s
      (scanStatements line code trimmed s) :=
  ((Adds.reportIf _ _ _).trans (.reportIf _ _ _)).trans (.reportIf _ _ _)

theorem function_scanStatements : (scanStatements line code trimmed s).function = s.function := by
  unfold scanStatements
  rw [function_reportIf, function_reportIf, function_reportIf]

/-- After what is looked for at depth zero alone. -/
def headed (s : State) (line : Nat) (code : List Char) : State :=
  if s.depth = 0 then
    scanFunctionHead line (Text.trimChars code) (scanVariables line code (Text.trimChars code) s)
  else s

/-- After what can be seen on a line without counting braces. -/
def looked (s : State) (line : Nat) (code : List Char) : State :=
  scanStatements line code (Text.trimChars code) (headed s line code)

/-- The rules that report the line that they look at. -/
def lineRules : List Rule :=
  [.exportedVar, .initFunction, .emptyInterface, .ignoredError, .panicCall, .nakedReturn]

theorem adds_headed (s : State) (line : Nat) (code : List Char) :
    Adds line [.exportedVar, .initFunction, .emptyInterface] s (headed s line code) := by
  unfold headed
  split
  · exact (adds_scanVariables _ _ _ _).trans (adds_scanFunctionHead _ _ _)
  · exact .nothing rfl rfl rfl

theorem adds_looked (s : State) (line : Nat) (code : List Char) :
    Adds line lineRules s (looked s line code) :=
  (adds_headed s line code).trans (adds_scanStatements _ _ _ _)

/-- The function that is open on a line. -/
def functionOn (s : State) (line : Nat) (code : List Char) : Option OpenFunction :=
  if s.depth = 0 then (headOf? line (Text.trimChars code)).or s.function else s.function

theorem function_looked : (looked s line code).function = functionOn s line code := by
  unfold looked headed functionOn
  rw [function_scanStatements]
  split
  · rw [function_scanFunctionHead, function_scanVariables]
  · rfl

/-- The goroutines that are open on a line, innermost first. -/
def goroutinesOn (s : State) (line : Nat) (code : List Char) : List Goroutine :=
  (if Text.startsWith "go func" (Text.trimChars code) then ⟨s.depth, none, false⟩ :: s.goroutines
    else s.goroutines).modifyHead (Goroutine.see line (Text.trimChars code))

theorem scanGoroutines_eq (line : Nat) (code : List Char) (s : State) :
    scanGoroutines line (Text.trimChars code) s =
      { s with goroutines := goroutinesOn s line code } := by
  unfold scanGoroutines goroutinesOn
  dsimp only
  split
  · rename_i hopened
    rw [hopened]
    rfl
  · rename_i hopened
    rw [hopened]
    rfl

theorem goroutinesOn_looked :
    goroutinesOn (looked s line code) line code = goroutinesOn s line code := by
  have hadds := adds_looked s line code
  unfold goroutinesOn
  rw [hadds.depth, hadds.goroutines]

/-! ## What a line closes -/

/-- The function has been seen at this depth. -/
def OpenFunction.deepened (depth : Nat) (f : OpenFunction) : OpenFunction :=
  { f with nestingReported := f.nestingReported || decide (deepestNesting ≤ depth) }

/-- The finding about nesting on a line that ends at this depth. -/
def nestingOn (line depth : Nat) : Option OpenFunction → List Finding
  | some f =>
    if deepestNesting ≤ depth ∧ f.nestingReported = false then [Rule.deepNesting.at_ line] else []
  | none => []

theorem scanNesting_eq (line : Nat) (s : State) :
    scanNesting line s = { s with
      function := s.function.map (OpenFunction.deepened s.depth)
      findings := s.findings ++ nestingOn line s.depth s.function } := by
  obtain ⟨depth, inVarBlock, function, goroutines, findings⟩ := s
  unfold scanNesting
  cases function with
  | none => simp [nestingOn]
  | some f =>
    obtain ⟨name, start, namedResults, nestingReported⟩ := f
    by_cases hdeep : deepestNesting ≤ depth <;> cases nestingReported <;>
      simp [nestingOn, OpenFunction.deepened, State.report, hdeep]

/-- The finding about the length of a function on a line that ends at this depth. -/
def lengthOn (line depth : Nat) : Option OpenFunction → List Finding
  | some f =>
    if depth = 0 ∧ longestFunction < line - f.start - 1 then
      [Rule.longFunction.at_ f.start (longMessage f.name (line - f.start - 1))]
    else []
  | none => []

theorem scanFunctionEnd_eq (line : Nat) (s : State) :
    scanFunctionEnd line s = { s with
      function := if s.depth = 0 then none else s.function
      findings := s.findings ++ lengthOn line s.depth s.function } := by
  obtain ⟨depth, inVarBlock, function, goroutines, findings⟩ := s
  unfold scanFunctionEnd
  cases function with
  | none => simp [lengthOn]
  | some f =>
    by_cases hdepth : depth = 0 <;> by_cases hlong : longestFunction < line - f.start - 1 <;>
      simp [lengthOn, hdepth, hlong]

theorem lengthOn_deepened (line depth depth' : Nat) (function : Option OpenFunction) :
    lengthOn line depth (function.map (OpenFunction.deepened depth')) =
      lengthOn line depth function := by
  cases function <;> rfl

/-- A line, part by part: what can be seen on it, its braces, and what it closes. -/
theorem scanLine_eq (s : State) (line : Nat) (code : List Char) :
    scanLine s line code =
      { depth := depthAfter s.depth code
        inVarBlock := (looked s line code).inVarBlock
        function := if depthAfter s.depth code = 0 then none else
          (functionOn s line code).map (OpenFunction.deepened (depthAfter s.depth code))
        goroutines := (closeGoroutines (depthAfter s.depth code) (goroutinesOn s line code)).2
        findings := (looked s line code).findings ++
          nestingOn line (depthAfter s.depth code) (functionOn s line code) ++
          (closeGoroutines (depthAfter s.depth code) (goroutinesOn s line code)).1 ++
          lengthOn line (depthAfter s.depth code) (functionOn s line code) } := by
  show scanFunctionEnd line (scanClosedGoroutines (scanNesting line
    { scanGoroutines line (Text.trimChars code) (looked s line code) with
      depth := depthAfter
        (scanGoroutines line (Text.trimChars code) (looked s line code)).depth code })) = _
  rw [scanGoroutines_eq, goroutinesOn_looked, scanNesting_eq, scanFunctionEnd_eq]
  unfold scanClosedGoroutines
  simp only [(adds_looked s line code).depth, function_looked, lengthOn_deepened]

/-! ## What is found of one rule -/

/-- Findings of one rule. -/
def AllOf (r : Rule) (fs : List Finding) : Prop := ∀ f ∈ fs, ∃ line text, f = r.at_ line text

theorem AllOf.filter_isSource {fs : List Finding} (h : AllOf r' fs) (r : Rule) :
    fs.filter r.isSource = if r = r' then fs else [] := by
  split
  · refine List.filter_eq_self.mpr fun f hf => ?_
    obtain ⟨line, text, rfl⟩ := h f hf
    simpa
  · refine List.filter_eq_nil_iff.mpr fun f hf => ?_
    obtain ⟨line, text, rfl⟩ := h f hf
    simpa

theorem allOf_nestingOn (line depth : Nat) (function : Option OpenFunction) :
    AllOf .deepNesting (nestingOn line depth function) := by
  intro f hf
  unfold nestingOn at hf
  split at hf
  · split at hf
    · exact ⟨_, _, List.mem_singleton.mp hf⟩
    · cases hf
  · cases hf

theorem allOf_lengthOn (line depth : Nat) (function : Option OpenFunction) :
    AllOf .longFunction (lengthOn line depth function) := by
  intro f hf
  unfold lengthOn at hf
  split at hf
  · split at hf
    · exact ⟨_, _, List.mem_singleton.mp hf⟩
    · cases hf
  · cases hf

theorem allOf_closeGoroutines (depth : Nat) (gs : List Goroutine) :
    AllOf .endlessGoroutine (closeGoroutines depth gs).1 := by
  induction gs with
  | nil => exact fun f hf => absurd hf List.not_mem_nil
  | cons g r ih =>
    unfold closeGoroutines
    split
    · exact fun f hf => absurd hf List.not_mem_nil
    · dsimp only
      split
      · split
        · exact ih
        · intro f hf
          rcases List.mem_cons.mp hf with rfl | hf
          · exact ⟨_, _, rfl⟩
          · exact ih f hf
      · exact ih

theorem told_reportIf (r r' : Rule) (condition : Bool) (s : State) (line : Nat) :
    told r (s.reportIf condition r' line) =
      told r s ++ if condition ∧ r = r' then [r'.at_ line] else [] := by
  unfold State.reportIf
  by_cases hcondition : condition = true
  · by_cases hr : r = r' <;> simp [told, State.report, hcondition, hr]
  · simp [hcondition]

theorem told_panicCall_looked (s : State) (line : Nat) (code : List Char) :
    told .panicCall (looked s line code) = told .panicCall s ++
      if Text.contains "panic(" (Text.trimChars code) then [Rule.panicCall.at_ line] else [] := by
  unfold looked scanStatements
  rw [told_reportIf, told_reportIf, told_reportIf, (adds_headed s line code).told_eq (by decide)]
  simp only [reduceCtorEq, and_false, and_true, if_false, List.append_nil]

/-- A line adds findings of the rules that look at it, and of three rules that look back. -/
theorem told_scanLine (r : Rule) (s : State) (line : Nat) (code : List Char) :
    told r (scanLine s line code) = told r (looked s line code) ++
      (if r = .deepNesting then nestingOn line (depthAfter s.depth code) (functionOn s line code)
        else []) ++
      (if r = .endlessGoroutine then
        (closeGoroutines (depthAfter s.depth code) (goroutinesOn s line code)).1 else []) ++
      (if r = .longFunction then lengthOn line (depthAfter s.depth code) (functionOn s line code)
        else []) := by
  rw [scanLine_eq]
  unfold told
  rw [List.filter_append, List.filter_append, List.filter_append,
    (allOf_nestingOn _ _ _).filter_isSource, (allOf_closeGoroutines _ _).filter_isSource,
    (allOf_lengthOn _ _ _).filter_isSource]

theorem told_deepNesting_scanLine (s : State) (line : Nat) (code : List Char) :
    told .deepNesting (scanLine s line code) = told .deepNesting s ++
      nestingOn line (depthAfter s.depth code) (functionOn s line code) := by
  rw [told_scanLine, (adds_looked s line code).told_eq (by decide)]
  simp

theorem told_longFunction_scanLine (s : State) (line : Nat) (code : List Char) :
    told .longFunction (scanLine s line code) = told .longFunction s ++
      lengthOn line (depthAfter s.depth code) (functionOn s line code) := by
  rw [told_scanLine, (adds_looked s line code).told_eq (by decide)]
  simp

theorem told_panicCall_scanLine (s : State) (line : Nat) (code : List Char) :
    told .panicCall (scanLine s line code) = told .panicCall s ++
      if Text.contains "panic(" (Text.trimChars code) then [Rule.panicCall.at_ line] else [] := by
  rw [told_scanLine, told_panicCall_looked]
  simp

theorem told_endlessGoroutine_scanLine (s : State) (line : Nat) (code : List Char) :
    told .endlessGoroutine (scanLine s line code) = told .endlessGoroutine s ++
      (closeGoroutines (depthAfter s.depth code) (goroutinesOn s line code)).1 := by
  rw [told_scanLine, (adds_looked s line code).told_eq (by decide)]
  simp

end SmellWatch.Heuristics
