import SmellWatch.Editor.Diagnostic
import SmellWatch.Prompt
import SmellWatch.Proofs.ModelAnswer.Validation
import SmellWatch.Text.Scan
/-! Lines and columns on their way from the question to the reader.

The rows of a question are numbered from one (`numbersLines_question`).  A model answers with such
numbers, findings and editors count from zero, and a reader counts from one again.  So a finding
stands for an editor on the line that had its number in the question, and is shown with the numbers
that the model gave (`places_of_findings`); all of them fit in 32 bits on the way. -/

namespace SmellWatch

open Decimal

/-! ## Rows of a question -/

namespace Prompt

variable {n i : Nat} {line row : String} {ls rows : List String}

/-- What a reader finds on a row: the number in front of the bar, and the line behind it. -/
def readRow? (row : String) : Option (Nat × String) :=
  let cs := row.toList.dropWhile (· = ' ')
  match Text.Scan.literal " | " (cs.dropWhile Char.isDigit) with
  | none => none
  | some rest =>
    if rest.getLast? = some '\n' then
      some (digitsValue (cs.takeWhile Char.isDigit), String.ofList rest.dropLast)
    else none

theorem toList_numbered (n : Nat) (line : String) :
    ∃ blanks, (numbered n line).toList =
      List.replicate blanks ' ' ++ (Nat.toDigits 10 n ++ (" | ".toList ++ (line.toList ++ ['\n']))) := by
  refine ⟨4 - (toString n).length, ?_⟩
  unfold numbered lineNumber
  simp only [String.toList_append, String.toList_ofList, toList_toString, List.append_assoc]
  rfl

/-- The number is read whole: digits neither start with a blank nor go on into the bar. -/
theorem readRow?_numbered (n : Nat) (line : String) :
    readRow? (numbered n line) = some (n, line) := by
  obtain ⟨blanks, hchars⟩ := toList_numbered n line
  obtain ⟨d, ds, hdigits⟩ := List.exists_cons_of_ne_nil (Nat.toDigits_ne_nil (n := n) (b := 10))
  have hd : d.isDigit = true := areDigits_toDigits n d (hdigits ▸ List.mem_cons_self)
  have hblank : ¬ (decide (d = ' ') = true) := by
    rw [decide_eq_true_eq]
    rintro rfl
    cases hd
  have hfront : (List.replicate blanks ' ' ++
      (Nat.toDigits 10 n ++ (" | ".toList ++ (line.toList ++ ['\n'])))).dropWhile (· = ' ') =
        Nat.toDigits 10 n ++ (" | ".toList ++ (line.toList ++ ['\n'])) := by
    rw [List.dropWhile_append_of_pos, hdigits, List.cons_append]
    · exact List.dropWhile_cons_of_neg hblank
    · intro c hc
      exact decide_eq_true (List.eq_of_mem_replicate hc)
  have hbar : ((Nat.toDigits 10 n ++ (" | ".toList ++ (line.toList ++ ['\n']))).dropWhile
      Char.isDigit) = " | ".toList ++ (line.toList ++ ['\n']) := by
    rw [List.dropWhile_append_of_pos (areDigits_toDigits n)]
    rfl
  have hnumber : ((Nat.toDigits 10 n ++ (" | ".toList ++ (line.toList ++ ['\n']))).takeWhile
      Char.isDigit) = Nat.toDigits 10 n := by
    rw [List.takeWhile_append_of_pos (areDigits_toDigits n)]
    exact List.append_nil _
  have hliteral : Text.Scan.literal " | " (" | ".toList ++ (line.toList ++ ['\n'])) =
      some (line.toList ++ ['\n']) := by
    unfold Text.Scan.literal
    rw [if_pos (List.isPrefixOf_iff_prefix.mpr (List.prefix_append _ _)), List.drop_left]
  unfold readRow?
  dsimp only
  rw [hchars, hfront, hbar, hnumber, hliteral, digitsValue_toDigits]
  simp

/-- What stands before the rows. -/
def opening (r : AnalysisRequest) : String :=
  s!"File: {r.document.name}\nLanguage: {r.language}\n" ++
  (if r.rules.isEmpty then "" else "Focus on: " ++ ", ".intercalate r.rules ++ "\n") ++
  "\n```" ++ r.language ++ "\n"

/-- What stands behind the rows: the mark, if there are more lines, and the fence. -/
def ending (more : Bool) : String := (if more then truncationMark else "") ++ "```\n"

/-- The question has these rows: row by row the lines of the document from its first line on, with
the number of the line in front. -/
structure NumbersLines (r : AnalysisRequest) (rows : List String) : Prop where
  length_le : rows.length ≤ (Text.lines r.content).length
  /-- Only behind the last line there is no mark. -/
  question_eq : question r =
    opening r ++ String.join rows ++ ending (decide (rows.length < (Text.lines r.content).length))
  /-- The number is one more than the index. -/
  read_row : ∀ i row, rows[i]? = some row →
    ∃ line, (Text.lines r.content)[i]? = some line ∧ readRow? row = some (i + 1, line)

theorem shownCount_le (used : Nat) (ls : List String) : shownCount used ls ≤ ls.length := by
  induction ls generalizing used with
  | nil => exact Nat.le_refl 0
  | cons line r ih =>
    unfold shownCount
    split
    · exact Nat.zero_le _
    · exact Nat.succ_le_succ (ih _)

/-- The rows of the question about a document. -/
def shownRows (r : AnalysisRequest) : List String :=
  ((Text.lines r.content).take (shownCount 0 (Text.lines r.content))).mapIdx
    fun i line => numbered (i + 1) line

theorem length_shownRows (r : AnalysisRequest) :
    (shownRows r).length = shownCount 0 (Text.lines r.content) := by
  unfold shownRows
  rw [List.length_mapIdx, List.length_take, Nat.min_eq_left (shownCount_le 0 _)]

theorem numbersLines_shownRows (r : AnalysisRequest) : NumbersLines r (shownRows r) := by
  refine ⟨?_, ?_, ?_⟩
  · rw [length_shownRows]
    exact shownCount_le 0 _
  · rw [length_shownRows]
    unfold question listing opening ending shownRows
    simp only [decide_eq_true_eq, String.append_assoc]
  · intro i row hrow
    unfold shownRows at hrow
    rw [List.getElem?_mapIdx] at hrow
    obtain ⟨line, hline, rfl⟩ := Option.map_eq_some_iff.mp hrow
    rw [List.getElem?_take] at hline
    split at hline
    · exact ⟨line, hline, readRow?_numbered (i + 1) line⟩
    · cases hline

theorem numbersLines_question (r : AnalysisRequest) : ∃ rows, NumbersLines r rows :=
  ⟨shownRows r, numbersLines_shownRows r⟩

end Prompt

/-! ## Places of findings -/

namespace Finding

variable {f : Finding} {fs : List Finding} {range : SourceRange} {k : Nat}

/-- Where an editor lets a diagnostic start: line and character, both from zero. -/
def editorStart? (diagnostic : Json) : Option (Nat × Nat) :=
  match (diagnostic.get? "range").bind (Json.get? "start") with
  | some start =>
    match start.get? "line", start.get? "character" with
    | some (.number (.natural line)), some (.number (.natural character)) => some (line, character)
    | _, _ => none
  | none => none

/-- Where the diagnostic at a place of what is published starts. -/
def publishedStart? (params : Json) (k : Nat) : Option (Nat × Nat) :=
  match params.get? "diagnostics" with
  | some (.array diagnostics) => diagnostics[k]?.bind editorStart?
  | _ => none

theorem editorStart?_toDiagnostic (h : f.range = some range) :
    editorStart? f.toDiagnostic = some (range.start.line, range.start.column) := by
  have hrange : f.toDiagnostic.get? "range" = some range.toEditor := by
    simp [toDiagnostic, h, Json.ofFields, Json.get?, Json.find?_insert_self,
      Json.find?_insert_of_ne]
  have hstart : range.toEditor.get? "start" = some range.start.toEditor := by
    simp [SourceRange.toEditor, Json.ofFields, Json.get?, Json.find?_insert_self,
      Json.find?_insert_of_ne]
  have hline : range.start.toEditor.get? "line" = some (.nat range.start.line) := by
    simp [Position.toEditor, Json.ofFields, Json.get?, Json.find?_insert_self,
      Json.find?_insert_of_ne]
  have hcharacter : range.start.toEditor.get? "character" = some (.nat range.start.column) := by
    simp [Position.toEditor, Json.ofFields, Json.get?, Json.find?_insert_self]
  unfold editorStart?
  rw [hrange, Option.bind_some, hstart]
  dsimp only
  rw [hline, hcharacter]
  rfl

theorem publishedStart?_diagnostics (h : f.range = some range) (hk : fs[k]? = some f)
    (uri : String) : publishedStart? (diagnostics uri fs) k =
      some (range.start.line, range.start.column) := by
  have hlist : (diagnostics uri fs).get? "diagnostics" = some (.array (fs.map toDiagnostic)) := by
    simp [diagnostics, Json.ofFields, Json.get?, Json.find?_insert_self]
  unfold publishedStart?
  rw [hlist]
  dsimp only
  rw [List.getElem?_map, hk, Option.map_some, Option.bind_some, editorStart?_toDiagnostic h]

theorem display_eq (h : f.range = some range) (path : String) :
    f.display path = path ++ ":" ++ toString (range.start.line + 1) ++ ":" ++
      toString (range.start.column + 1) ++
        (": " ++ (f.severity.label ++ " [" ++ f.id ++ "] " ++ f.title)) := by
  have hplace : f.place = (range.start.line + 1, range.start.column + 1) := by
    unfold place
    rw [h]
  unfold display
  rw [hplace]
  simp only [String.append_assoc]
  rfl

/-- The finding is on this line and in this column, which count from one. -/
structure StandsAt (f : Finding) (line column : Nat) : Prop where
  /-- Wherever it is among published findings, an editor shows it where it counts from zero. -/
  published : ∀ uri fs k, fs[k]? = some f →
    publishedStart? (diagnostics uri fs) k = some (line - 1, column - 1)
  /-- A reader gets both numbers as they are. -/
  displayed : ∀ path, ∃ rest,
    f.display path = path ++ ":" ++ toString line ++ ":" ++ toString column ++ (": " ++ rest)

/-- Every number of the range fits in 32 bits, also where it is counted from one. -/
def FitsWords (range : SourceRange) : Prop :=
  range.start.line + 1 < 2 ^ 32 ∧ range.start.column + 1 < 2 ^ 32 ∧
    range.stop.line < 2 ^ 32 ∧ range.stop.column < 2 ^ 32

end Finding

namespace ModelAnswer

open JsonSource

variable {index n line column : Nat} {r : Record} {f : Finding} {v : Json}
  {fs : List Finding} {range : SourceRange} {answer : String}

namespace Record

theorem lt_of_optionPart? {part : Option JsonSource} {value : Option Nat}
    (h : optionPart? word? part = some value) (hn : value = some n) : n < 2 ^ 32 := by
  subst hn
  obtain ⟨s, hs⟩ : ∃ s : JsonSource, s.word? = some n := by
    cases part with
    | none => cases h
    | some s =>
      refine ⟨s, ?_⟩
      cases s with
      | null => cases h
      | bool | string | array | object => cases h
      | number => exact (Option.map_injective (Option.some_injective Nat)) h
  unfold word? at hs
  split at hs
  · split at hs
    · obtain rfl := Option.some.inj hs
      assumption
    · cases hs
  · cases hs

/-- The numbers of a record are read as numbers of 32 bits. -/
structure HasWords (r : Record) : Prop where
  line : ∀ n, r.line = some n → n < 2 ^ 32
  column : ∀ n, r.column = some n → n < 2 ^ 32
  endLine : ∀ n, r.endLine = some n → n < 2 ^ 32
  endColumn : ∀ n, r.endColumn = some n → n < 2 ^ 32

theorem hasWords_of_ofJson? (h : ofJson? v = some r) : r.HasWords := by
  unfold ofJson? at h
  split at h
  · obtain ⟨id, -, h⟩ := Option.bind_eq_some_iff.mp h
    obtain ⟨title, -, h⟩ := Option.bind_eq_some_iff.mp h
    obtain ⟨severity, -, h⟩ := Option.bind_eq_some_iff.mp h
    obtain ⟨message, -, h⟩ := Option.bind_eq_some_iff.mp h
    obtain ⟨suggestion, -, h⟩ := Option.bind_eq_some_iff.mp h
    obtain ⟨category, -, h⟩ := Option.bind_eq_some_iff.mp h
    obtain ⟨confidence, -, h⟩ := Option.bind_eq_some_iff.mp h
    obtain ⟨line, hline, h⟩ := Option.bind_eq_some_iff.mp h
    obtain ⟨column, hcolumn, h⟩ := Option.bind_eq_some_iff.mp h
    obtain ⟨endLine, hendLine, h⟩ := Option.bind_eq_some_iff.mp h
    obtain ⟨endColumn, hendColumn, h⟩ := Option.bind_eq_some_iff.mp h
    obtain rfl := Option.some.inj h
    exact ⟨fun _ => lt_of_optionPart? hline, fun _ => lt_of_optionPart? hcolumn,
      fun _ => lt_of_optionPart? hendLine, fun _ => lt_of_optionPart? hendColumn⟩
  · cases h

/-- No number of a range is greater than one of its record. -/
theorem fitsWords_of_range? (hr : r.HasWords) (h : r.range? = some range) :
    Finding.FitsWords range := by
  have hcolumns : ∀ {field : Option Nat}, (∀ n, field = some n → n < 2 ^ 32) →
      field.getD 1 - 1 + 1 < 2 ^ 32 := by
    intro field hfield
    cases field with
    | none => decide
    | some n =>
      have hn := hfield n rfl
      rw [Option.getD_some]
      omega
  have hcolumn := hcolumns hr.column
  have hendColumn := hcolumns hr.endColumn
  obtain ⟨line, hline, hpos, hstart, hstop⟩ := range?_spec h
  have hword := hr.line line hline
  unfold Finding.FitsWords
  rw [hstart]
  refine ⟨?_, hcolumn, ?_⟩
  · rw [Nat.sub_add_cancel hpos]
    exact hword
  · rcases hstop with hstop | ⟨-, endLine, hend, -, hstop⟩
    · rw [hstop]
      exact ⟨hword, Nat.two_pow_pos 32⟩
    · have hendLine := hr.endLine endLine hend
      rw [hstop]
      exact ⟨(Nat.sub_le endLine 1).trans_lt hendLine, (Nat.lt_succ_self _).trans hendColumn⟩

end Record

theorem standsAt_of_finding? (h : r.finding? index = some f) (hline : r.line = some line)
    (hpos : 1 ≤ line) (hcolumn : r.column.getD 1 = column) (hpos' : 1 ≤ column) :
    f.StandsAt line column := by
  obtain ⟨range, hrange⟩ := Record.exists_range? hline hpos
  obtain ⟨line', hline', -, hstart, -⟩ := Record.range?_spec hrange
  obtain rfl := Option.some.inj (hline.symm.trans hline')
  rw [hcolumn] at hstart
  have hf : f.range = some range := by
    obtain ⟨-, -, rfl⟩ := Option.map_eq_some_iff.mp h
    exact hrange
  constructor
  · intro uri fs k hk
    rw [Finding.publishedStart?_diagnostics hf hk, hstart]
  · intro path
    have hdisplay := Finding.display_eq hf path
    rw [hstart] at hdisplay
    dsimp only at hdisplay
    rw [Nat.sub_add_cancel hpos, Nat.sub_add_cancel hpos'] at hdisplay
    exact ⟨_, hdisplay⟩

/-- The finding of a record stands where the record says, and no number on the way there is too
great. -/
structure IsPlaced (r : Record) (f : Finding) : Prop where
  /-- A record without a column means the first one. -/
  standsAt : ∀ line column, r.line = some line → 1 ≤ line → r.column.getD 1 = column →
    1 ≤ column → f.StandsAt line column
  fits : ∀ range, f.range = some range → Finding.FitsWords range

theorem isPlaced_of_finding? (hr : Record.ofJson? v = some r) (h : r.finding? index = some f) :
    IsPlaced r f where
  standsAt := fun _ _ hline hpos hcolumn hpos' => standsAt_of_finding? h hline hpos hcolumn hpos'
  fits := by
    obtain ⟨-, -, rfl⟩ := Option.map_eq_some_iff.mp h
    exact fun range hrange => Record.fitsWords_of_range? (Record.hasWords_of_ofJson? hr) hrange

/-- The rows of every question are numbered from one, and for every record of an answer that yields
a finding, this is among the findings and stands where the record says. -/
theorem places_of_findings (h : findings answer = .ok fs) (request : AnalysisRequest) :
    (∃ rows, Prompt.NumbersLines request rows) ∧
      ∃ items, elements answer = .ok items ∧
        ∀ i v r f, items[i]? = some v → Record.ofJson? v = some r → r.finding? i = some f →
          f ∈ fs ∧ IsPlaced r f := by
  obtain ⟨items, hitems, rfl⟩ := elements_of_findings h
  refine ⟨Prompt.numbersLines_question request, items, hitems, fun i v r f hv hr hf => ⟨?_, ?_⟩⟩
  · refine mem_elementFindings_iff.mpr ⟨i, v, hv, ?_⟩
    rw [elementFinding?, hr, Option.bind_some, hf]
  · exact isPlaced_of_finding? hr hf

/-- A record at the greatest place there is. -/
def farAnswer : String :=
  "[\x7b\"title\":\"t\",\"line\":4294967295,\"column\":4294967295\x7d]"

/-- The finding in it. -/
def farFindings : List Finding :=
  [{ id := "W001", title := "t", severity := .warning, message := "t", confidence := .half,
     range := some ⟨⟨4294967294, 4294967294⟩, ⟨4294967295, 0⟩⟩ }]

theorem places_of_findings_far :
    findings farAnswer = .ok farFindings ∧
      (∃ rows, Prompt.NumbersLines (.ofDocument ⟨"main.go"⟩ "package main\n" []) rows) ∧
      ∃ items, elements farAnswer = .ok items ∧
        ∀ i v r f, items[i]? = some v → Record.ofJson? v = some r → r.finding? i = some f →
          f ∈ farFindings ∧ IsPlaced r f := by
  have h : findings farAnswer = .ok farFindings := by decide +kernel
  exact ⟨h, places_of_findings h _⟩

end ModelAnswer

end SmellWatch
