import Mathlib.Data.List.Nodup
import SmellWatch.Proofs.Heuristics.Course
/-! No two findings of a scan have the same id.

An id is taken when a finding has it, and already when something that is open may get a finding
with it: a function for the line of its head, a goroutine for the line of its loop. So what is
reported late, and for an earlier line, takes no new id; a line as a whole takes the id of each
rule on that line at most once (`count_takenIds_scanLine`). Two ids are the same only for one rule
and one line (`idAt_inj`), hence no id is taken twice (`nodup_takenIds`).

With the fields that all findings of a rule share this is what a scan looks like
(`wellFormed_scan`). -/

namespace SmellWatch.Heuristics

open Decimal GoSource

variable {s : State} {r : Rule} {n line : Nat} {code : List Char} {codes : List (List Char)}
  {f : Finding} {id : String}

/-! ## Ids that are taken -/

def idsOf (fs : List Finding) : List String := fs.map (·.id)

/-- The id of a finding that may yet be made about the function. -/
def dueOfFunction : Option OpenFunction → List String
  | some f => [Rule.longFunction.idAt f.start]
  | none => []

/-- The ids of findings that may yet be made about goroutines. -/
def dueOfGoroutines (gs : List Goroutine) : List String :=
  gs.filterMap fun g => g.loopLine.map Rule.endlessGoroutine.idAt

def takenIds (s : State) : List String :=
  idsOf s.findings ++ dueOfFunction s.function ++ dueOfGoroutines s.goroutines

/-- The rules, those first that report the line they look at. -/
def allRules : List Rule := lineRules ++ [.deepNesting, .longFunction, .endlessGoroutine]

/-- The ids that a line may take. -/
def newIds (line : Nat) : List String := allRules.map (·.idAt line)

/-! ## One line -/

theorem count_looked (s : State) (line : Nat) (code : List Char) (id : String) :
    (idsOf (looked s line code).findings).count id ≤
      (idsOf s.findings).count id + (lineRules.map (·.idAt line)).count id := by
  obtain ⟨seen, hsub, hfound⟩ := (adds_looked s line code).found
  have hseen : idsOf (seen.map (·.at_ line)) = seen.map (·.idAt line) := by
    unfold idsOf
    rw [List.map_map]
    rfl
  have hle := (hsub.map (·.idAt line)).count_le id
  unfold idsOf at hseen ⊢
  rw [hfound, List.map_append, List.count_append, hseen]
  omega

theorem count_nestingOn (line depth : Nat) (function : Option OpenFunction) (id : String) :
    (idsOf (nestingOn line depth function)).count id ≤ [Rule.deepNesting.idAt line].count id := by
  unfold nestingOn
  split
  · split
    · exact Nat.le_refl _
    · exact Nat.zero_le _
  · exact Nat.zero_le _

/-- Only the head of a function takes an id for its length. -/
theorem count_dueOfFunction_functionOn (s : State) (line : Nat) (code : List Char) (id : String) :
    (dueOfFunction (functionOn s line code)).count id ≤
      (dueOfFunction s.function).count id + [Rule.longFunction.idAt line].count id := by
  unfold functionOn headOf?
  split
  · split
    · cases functionName? (Text.trimChars code) with
      | none => exact Nat.le_add_right _ _
      | some name => exact Nat.le_add_left _ _
    · exact Nat.le_add_right _ _
  · exact Nat.le_add_right _ _

/-- A function that is closed gets the finding that was due, or none. -/
theorem count_lengthOn (line depth : Nat) (function : Option OpenFunction) (id : String) :
    (idsOf (lengthOn line depth function)).count id +
        (dueOfFunction (if depth = 0 then none
          else function.map (OpenFunction.deepened depth))).count id ≤
      (dueOfFunction function).count id := by
  cases function with
  | none => split <;> exact Nat.le_refl _
  | some f =>
    by_cases hdepth : depth = 0
    · rw [if_pos hdepth]
      by_cases hlong : longestFunction < line - f.start - 1
      · have hfound : lengthOn line depth (some f) =
            [Rule.longFunction.at_ f.start (longMessage f.name (line - f.start - 1))] :=
          if_pos ⟨hdepth, hlong⟩
        rw [hfound]
        exact Nat.le_refl _
      · have hshort : lengthOn line depth (some f) = [] := if_neg fun h => hlong h.2
        rw [hshort]
        exact Nat.zero_le _
    · have hopen : lengthOn line depth (some f) = [] := if_neg fun h => hdepth h.1
      rw [if_neg hdepth, hopen]
      exact Nat.le_of_eq (Nat.zero_add _)

/-- Only a loop on this line takes an id for it. -/
theorem count_dueOfGoroutines_goroutinesOn (s : State) (line : Nat) (code : List Char)
    (id : String) :
    (dueOfGoroutines (goroutinesOn s line code)).count id ≤
      (dueOfGoroutines s.goroutines).count id + [Rule.endlessGoroutine.idAt line].count id := by
  have hsee : ∀ gs : List Goroutine,
      (dueOfGoroutines (gs.modifyHead (Goroutine.see line (Text.trimChars code)))).count id ≤
        (dueOfGoroutines gs).count id + [Rule.endlessGoroutine.idAt line].count id := by
    intro gs
    cases gs with
    | nil => exact Nat.zero_le _
    | cons g rest =>
      cases hloop : g.loopLine with
      | some l => simp [dueOfGoroutines, Goroutine.see, hloop]
      | none =>
        by_cases hfor : Text.trimChars code = "for \x7b".toList
        · have hline : (g.see line (Text.trimChars code)).loopLine = some line := by
            simp only [Goroutine.see, hloop, hfor, Option.isNone_none, decide_true, Bool.and_true,
              if_true]
          simp [dueOfGoroutines, hline, hloop, List.count_cons]
        · have hline : (g.see line (Text.trimChars code)).loopLine = none := by
            simp only [Goroutine.see, hloop, hfor, decide_false, Bool.false_and,
              Bool.false_eq_true, if_false]
          simp [dueOfGoroutines, hline, hloop]
  unfold goroutinesOn
  split
  · exact hsee _
  · exact hsee _

/-- A goroutine that is closed gets the finding that was due, or none. -/
theorem count_closeGoroutines (depth : Nat) (gs : List Goroutine) (id : String) :
    (idsOf (closeGoroutines depth gs).1).count id +
        (dueOfGoroutines (closeGoroutines depth gs).2).count id ≤
      (dueOfGoroutines gs).count id := by
  induction gs with
  | nil => exact Nat.le_refl _
  | cons g rest ih =>
    unfold closeGoroutines
    by_cases hopen : g.depth < depth
    · rw [if_pos hopen]
      exact Nat.le_of_eq (Nat.zero_add _)
    · rw [if_neg hopen]
      cases hloop : g.loopLine with
      | none => simpa [dueOfGoroutines, hloop] using ih
      | some l =>
        have hdue : dueOfGoroutines (g :: rest) =
            Rule.endlessGoroutine.idAt l :: dueOfGoroutines rest := by
          simp [dueOfGoroutines, hloop]
        have hid : idsOf (Rule.endlessGoroutine.at_ l :: (closeGoroutines depth rest).1) =
            Rule.endlessGoroutine.idAt l :: idsOf (closeGoroutines depth rest).1 := rfl
        dsimp only
        rw [hdue, List.count_cons]
        split
        · omega
        · rw [hid, List.count_cons]
          omega

/-- A line takes the id of each rule at most once. -/
theorem count_takenIds_scanLine (s : State) (line : Nat) (code : List Char) (id : String) :
    (takenIds (scanLine s line code)).count id ≤
      (takenIds s).count id + (newIds line).count id := by
  have hlooked := count_looked s line code id
  have hnesting := count_nestingOn line (depthAfter s.depth code) (functionOn s line code) id
  have hhead := count_dueOfFunction_functionOn s line code id
  have hlength := count_lengthOn line (depthAfter s.depth code) (functionOn s line code) id
  have hloop := count_dueOfGoroutines_goroutinesOn s line code id
  have hclosed := count_closeGoroutines (depthAfter s.depth code) (goroutinesOn s line code) id
  have hnew : newIds line = lineRules.map (·.idAt line) ++ [Rule.deepNesting.idAt line] ++
      [Rule.longFunction.idAt line] ++ [Rule.endlessGoroutine.idAt line] := rfl
  have hfound : idsOf (scanLine s line code).findings = idsOf (looked s line code).findings ++
      idsOf (nestingOn line (depthAfter s.depth code) (functionOn s line code)) ++
      idsOf (closeGoroutines (depthAfter s.depth code) (goroutinesOn s line code)).1 ++
      idsOf (lengthOn line (depthAfter s.depth code) (functionOn s line code)) := by
    rw [scanLine_eq]
    unfold idsOf
    rw [List.map_append, List.map_append, List.map_append]
  unfold takenIds
  rw [hfound, hnew, scanLine_eq]
  simp only [List.count_append]
  omega

/-! ## All lines -/

theorem nodup_newIds (line : Nat) : (newIds line).Nodup :=
  List.Nodup.map (fun _ _ h => (Rule.idAt_inj h).1) (by decide)

theorem nodup_flatMap_newIds (n : Nat) : ((List.range n).flatMap newIds).Nodup := by
  rw [List.nodup_flatMap]
  refine ⟨fun line _ => nodup_newIds line, List.pairwise_lt_range.imp fun {a b} hlt => ?_⟩
  intro id ha hb
  obtain ⟨r, -, rfl⟩ := List.mem_map.mp ha
  obtain ⟨r', -, hid⟩ := List.mem_map.mp hb
  have := (Rule.idAt_inj hid).2
  omega

theorem count_takenIds_stateBefore (codes : List (List Char)) (n : Nat) (id : String) :
    (takenIds (stateBefore codes n)).count id ≤ ((List.range n).flatMap newIds).count id := by
  induction n with
  | zero => exact Nat.le_refl _
  | succ n ih =>
    have hline := count_takenIds_scanLine (stateBefore codes n) n (codes.getD n []) id
    rw [List.range_succ, List.flatMap_append, List.count_append, List.flatMap_singleton,
      stateBefore]
    omega

theorem nodup_takenIds (codes : List (List Char)) (n : Nat) :
    (takenIds (stateBefore codes n)).Nodup := by
  rw [List.nodup_iff_count_le_one]
  intro id
  exact Nat.le_trans (count_takenIds_stateBefore codes n id)
    (List.nodup_iff_count_le_one.mp (nodup_flatMap_newIds n) id)

theorem ruled_stateBefore (codes : List (List Char)) (n : Nat) : (stateBefore codes n).Ruled := by
  induction n with
  | zero => exact fun f hf => absurd hf List.not_mem_nil
  | succ n ih => exact ruled_scanLine n _ ih

/-- What was found stands on a line before. -/
theorem exists_line_of_mem (hf : f ∈ (stateBefore codes n).findings) :
    ∃ r line text, f = Rule.at_ r line text ∧ line < n := by
  obtain ⟨r, line, text, rfl⟩ := ruled_stateBefore codes n f hf
  have htaken : r.idAt line ∈ takenIds (stateBefore codes n) :=
    List.mem_append_left _ (List.mem_append_left _ (List.mem_map_of_mem hf))
  have hcount := count_takenIds_stateBefore codes n (r.idAt line)
  have hpos := List.count_pos_iff.mpr htaken
  obtain ⟨line', hline', hid⟩ := List.mem_flatMap.mp
    (List.count_pos_iff.mp (Nat.lt_of_lt_of_le hpos hcount))
  obtain ⟨r', -, heq⟩ := List.mem_map.mp hid
  obtain ⟨-, rfl⟩ := Rule.idAt_inj heq
  exact ⟨r, line', text, rfl, List.mem_range.mp hline'⟩

/-! ## Scans -/

theorem nodup_idsOf_scan (document : DocumentId) (content : String) :
    (idsOf (scan document content)).Nodup := by
  unfold scan
  split
  · unfold scanGo
    have hperm := List.mergeSort_perm
      (scanLines .start 0 (strippedLines content)).findings
      fun a b => decide (startLine a ≤ startLine b)
    refine (hperm.map (·.id)).nodup_iff.mpr ?_
    rw [scanLines_eq]
    exact (List.nodup_append.mp (List.nodup_append.mp (nodup_takenIds _ _)).1).1
  · exact List.nodup_nil

theorem pairwise_startLine_scan (document : DocumentId) (content : String) :
    (scan document content).Pairwise fun f g => startLine f ≤ startLine g := by
  unfold scan
  split
  · unfold scanGo
    have hsorted : ((scanLines .start 0 (strippedLines content)).findings.mergeSort
        fun f g => decide (startLine f ≤ startLine g)).Pairwise
          fun f g => decide (startLine f ≤ startLine g) = true :=
      List.pairwise_mergeSort (by intro f g h; simp; omega) (by intro f g; simp; omega) _
    exact hsorted.imp fun h => of_decide_eq_true h
  · exact List.Pairwise.nil

theorem length_strippedLines (content : String) :
    (strippedLines content).length = (Text.lines content).length := by
  unfold strippedLines Text.lines
  rw [length_stripLines, List.length_map]

/-- A finding that covers one line of a text of `count` lines, is named after a rule and the line,
and does not claim much. -/
structure StandsOn (count line : Nat) (f : Finding) : Prop where
  line_lt : line < count
  range : f.range = some ⟨⟨line, 0⟩, ⟨line + 1, 0⟩⟩
  fits : line + 1 < 2 ^ 32
  id : ∃ r : Rule, f.id = r.code ++ ":" ++ toString (line + 1)
  category : f.category ≠ ""
  severity : f.severity ≤ .warning
  confidence : f.confidence ≤ .half

theorem confidence_le_half (r : Rule) : r.confidence.clampUnit ≤ .half := by
  cases r <;> decide +kernel

theorem standsOn_at {count : Nat} (r : Rule) (text : Option String) (hline : line < count)
    (hcount : count < 2 ^ 32 - 1) : StandsOn count line (r.at_ line text) where
  line_lt := hline
  range := rfl
  fits := by omega
  id := ⟨r, rfl⟩
  category := by cases r <;> exact of_decide_eq_true rfl
  severity := by cases r <;> exact of_decide_eq_true rfl
  confidence := confidence_le_half r

/-- Findings in the order of their places, each on one line of a text of `count` lines, and no two
with the same id. -/
structure WellFormed (count : Nat) (found : List Finding) : Prop where
  sorted : found.Pairwise fun f g => ∀ p q, f.range = some p → g.range = some q →
    q.start.before p.start = false
  onLines : ∀ f ∈ found, ∃ line, StandsOn count line f
  distinct : (found.map (·.id)).Nodup

theorem wellFormed_scan (document : DocumentId) (content : String)
    (hcount : (Text.lines content).length < 2 ^ 32 - 1) :
    WellFormed (Text.lines content).length (scan document content) := by
  have hstands : ∀ f ∈ scan document content, ∃ line,
      StandsOn (Text.lines content).length line f := by
    intro f hf
    obtain ⟨r, line, text, rfl, hline⟩ := exists_line_of_mem ((mem_scan_iff _ _).mp hf).2
    rw [length_strippedLines] at hline
    exact ⟨line, standsOn_at r text hline hcount⟩
  refine ⟨?_, hstands, nodup_idsOf_scan document content⟩
  refine (pairwise_startLine_scan document content).imp_of_mem ?_
  intro f g hf hg hle p q hp hq
  obtain ⟨l, hl⟩ := hstands f hf
  obtain ⟨m, hm⟩ := hstands g hg
  obtain rfl := Option.some.inj (hl.range.symm.trans hp)
  obtain rfl := Option.some.inj (hm.range.symm.trans hq)
  unfold startLine at hle
  rw [hl.range, hm.range] at hle
  have hnot : ¬ m < l := Nat.not_lt_of_le hle
  simp [Position.before, hnot]

/-- The loop of a goroutine, which is found when the goroutine ends, after what is found in it. -/
def loopWithPanic : List Char :=
  "func f() \x7b\n\tgo func() \x7b\n\t\tfor \x7b\n\t\t\tpanic(1)\n\t\t\x7d\n\t\x7d()\n\x7d\n".toList

theorem wellFormed_scan_loopWithPanic :
    (Text.lines (String.ofList loopWithPanic)).length < 2 ^ 32 - 1 ∧
      WellFormed (Text.lines (String.ofList loopWithPanic)).length
        (scan ⟨"main.go"⟩ (String.ofList loopWithPanic)) ∧
      Rule.endlessGoroutine.at_ 2 ∈ scan ⟨"main.go"⟩ (String.ofList loopWithPanic) ∧
      Rule.panicCall.at_ 3 ∈ scan ⟨"main.go"⟩ (String.ofList loopWithPanic) := by
  have hcount : (Text.lines (String.ofList loopWithPanic)).length < 2 ^ 32 - 1 := by
    rw [← length_strippedLines, strippedLines_ofList]
    decide +kernel
  have hfound : Rule.endlessGoroutine.at_ 2 ∈
        (scanLines .start 0 (strippedLines (String.ofList loopWithPanic))).findings ∧
      Rule.panicCall.at_ 3 ∈
        (scanLines .start 0 (strippedLines (String.ofList loopWithPanic))).findings := by
    rw [strippedLines_ofList]
    decide +kernel
  have hgo : languageOf "main.go" = "go" := by decide +kernel
  exact ⟨hcount, wellFormed_scan ⟨"main.go"⟩ _ hcount,
    (mem_scan_iff_scanLines _ _).mpr ⟨hgo, hfound.1⟩,
    (mem_scan_iff_scanLines _ _).mpr ⟨hgo, hfound.2⟩⟩

end SmellWatch.Heuristics
