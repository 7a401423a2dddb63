import SmellWatch.Proofs.Decimal.Widening
import SmellWatch.Proofs.Json.Merge
import SmellWatch.Proofs.Json.Pretty
import SmellWatch.Report
/-! Reports as JSON texts, written and read back.

The text of a report is a list of records of a path and findings, and it can be read as that
(`Report.files?`).  A finding leaves out what is empty, and comes back with it (`Finding.readsAs`).
So a report whose findings were built by their builders comes back whole: the same files in the
same order, with the same findings (`Report.files?_render`).  What is taken for granted of numbers
is that the text of each confidence in the report is read as that confidence. -/

namespace SmellWatch

open Decimal

/-! ## Reading a report -/

namespace FileReport

def fields : List RecordField := [.required "path", .required "findings"]

def ofJson? (s : JsonSource) : Option FileReport :=
  match s.parts? fields with
  | some [path, findings] => do
    let path ← JsonSource.requiredPart? JsonSource.text? path
    let findings ← JsonSource.requiredPart? (JsonSource.list? Finding.ofJson?) findings
    return ⟨path, findings⟩
  | _ => none

end FileReport

/-- The files in the JSON text of a report. -/
def Report.files? (text : String) : Option (List FileReport) :=
  (JsonSource.ofText? text).bind (JsonSource.list? FileReport.ofJson?)

/-! ## Findings as they are built -/

/-- Lines and columns of 32 bits. -/
structure SourceRange.Fits (r : SourceRange) : Prop where
  startLine : r.start.line < Nat.pow 2 32
  startColumn : r.start.column < Nat.pow 2 32
  stopLine : r.stop.line < Nat.pow 2 32
  stopColumn : r.stop.column < Nat.pow 2 32

/-- A finding that was begun as a basic one and went through builders. -/
inductive Finding.IsBuilt : Finding → Prop
  | basic (id title : String) (severity : Severity) (message : String) :
      IsBuilt (.basic id title severity message)
  | withSuggestion {f : Finding} (s : String) : IsBuilt f → IsBuilt (f.withSuggestion s)
  | withCategory {f : Finding} (s : String) : IsBuilt f → IsBuilt (f.withCategory s)
  | withConfidence {f : Finding} (c : Single) : IsBuilt f → IsBuilt (f.withConfidence c)
  | withRange {f : Finding} {r : SourceRange} : r.Fits → IsBuilt f → IsBuilt (f.withRange r)

/-- The text of the number is read as the number. -/
def Decimal.Single.ReadsBack (x : Single) : Prop :=
  JsonSource.single?
      (.number ((numberText? (Json.numberText (.single x)).toList).bind NumberText.value)) =
    some x

variable {α : Type} {read? : JsonSource → Option α} {f : Finding} {r : SourceRange} {x : Single}

/-- What is in the unit interval is finite. -/
theorem Decimal.Single.isFinite_clampUnit (x : Single) : x.clampUnit.isFinite = true := by
  unfold clampUnit
  split
  · decide
  rename_i hnumber
  split
  · decide
  rename_i hlow
  split
  · decide
  rename_i hhigh
  refine (Format.isFinite_iff _ _).mpr ?_
  have hzero : (0 : Single).isNaN = false ∧ (0 : Single).key = 0 := by decide
  have hone : (1 : Single).isNaN = false ∧ (1 : Single).key = 1065353216 := by decide
  have hsign : Format.single.signBit = 2147483648 := by decide
  have hinfinity : Format.single.infinity = 2139095040 := by decide
  have hnonneg : ¬ x.key < 0 := by
    intro hneg
    refine hlow ?_
    show x.less 0 = true
    unfold less
    simp [hnumber, hzero, hneg]
  have hle : ¬ 1065353216 < x.key := by
    intro hgreat
    refine hhigh ?_
    show (1 : Single).less x = true
    unfold less
    simp [hnumber, hone, hgreat]
  unfold key Format.key Format.isNegative at hnonneg hle
  rw [hsign] at hnonneg hle ⊢
  rw [hinfinity]
  by_cases hbits : 2147483648 ≤ x.bits.toNat
  · simp only [hbits, decide_true, if_true] at hnonneg hle
    omega
  · simp only [hbits, decide_false, if_false, Bool.false_eq_true] at hnonneg hle
    omega

theorem Finding.IsBuilt.isFinite (h : f.IsBuilt) : f.confidence.isFinite = true := by
  induction h with
  | basic => exact (show (1 : Single).isFinite = true by decide)
  | withSuggestion _ _ ih => exact ih
  | withCategory _ _ ih => exact ih
  | withConfidence c => exact c.isFinite_clampUnit
  | withRange _ _ ih => exact ih

theorem Finding.IsBuilt.fits (h : f.IsBuilt) (hr : f.range = some r) : r.Fits := by
  induction h with
  | basic => cases hr
  | withSuggestion _ _ ih => exact ih hr
  | withCategory _ _ ih => exact ih hr
  | withConfidence _ _ ih => exact ih hr
  | withRange hfits =>
    cases hr
    exact hfits

/-! ## Values, written and read -/

/-- The value is legible, and read as something it becomes this. -/
structure ReadsAs (read? : JsonSource → Option α) (v : Json) (a : α) : Prop where
  legible : v.IsLegible
  read : read? (.ofValue v.reread) = some a

theorem readsAs_text (s : String) : ReadsAs JsonSource.text? (.string s) s := ⟨trivial, rfl⟩

theorem readsAs_word {n : Nat} (h : n < Nat.pow 2 32) : ReadsAs JsonSource.word? (.nat n) n := by
  have hlong : n < Nat.pow 2 64 := Nat.lt_trans h (by decide)
  refine ⟨JsonNumber.isLegible_natural hlong, ?_⟩
  show JsonSource.word? (.number (some (JsonNumber.natural n).reread)) = some n
  rw [JsonNumber.reread_natural hlong]
  exact if_pos h

theorem readsAs_severity (s : Severity) : ReadsAs Severity.ofJson? (.string s.label) s :=
  ⟨trivial, Severity.ofLabel?_label s⟩

theorem readsAs_single (hfinite : x.isFinite = true) (h : x.ReadsBack) :
    ReadsAs JsonSource.single? (.ofSingle x) x := by
  unfold Decimal.Single.ReadsBack at h
  unfold Json.ofSingle
  rw [if_pos hfinite]
  cases hvalue : (numberText? (Json.numberText (.single x)).toList).bind NumberText.value with
  | none =>
    rw [hvalue] at h
    cases h
  | some m =>
    rw [hvalue] at h
    refine ⟨?_, ?_⟩
    · show (JsonNumber.single x).IsLegible
      unfold JsonNumber.IsLegible
      rw [hvalue]
      rfl
    · show JsonSource.single? (.number (some (JsonNumber.single x).reread)) = some x
      unfold JsonNumber.reread
      rw [hvalue]
      exact h

theorem readsAs_list {toJson : α → Json} {l : List α}
    (h : ∀ a ∈ l, ReadsAs read? (toJson a) a) :
    ReadsAs (JsonSource.list? read?) (.array (l.map toJson)) l := by
  induction l with
  | nil => exact ⟨trivial, rfl⟩
  | cons a l ih =>
    have hfirst := h a List.mem_cons_self
    have hothers := ih fun b hb => h b (List.mem_cons_of_mem a hb)
    refine ⟨⟨hfirst.legible, hothers.legible⟩, ?_⟩
    show (List.mapM read? (.ofValue (toJson a).reread :: _)) = some (a :: l)
    have hread : List.mapM read? (JsonSource.ofValues (Json.rereadItems (l.map toJson))) = some l :=
      hothers.read
    rw [List.mapM_cons, hfirst.read]
    show (List.mapM read? (JsonSource.ofValues (Json.rereadItems (l.map toJson)))).bind _ = _
    rw [hread]
    rfl

/-! ## Records, written and read -/

namespace Json

theorem map_fst_rereadFields (fields : Fields) :
    (rereadFields fields).map (·.1) = fields.map (·.1) := by
  induction fields with
  | nil => rfl
  | cons kv r ih =>
    rw [rereadFields, List.map_cons, List.map_cons, ih]

theorem find?_rereadFields (name : String) (fields : Fields) :
    find? name (rereadFields fields) = (find? name fields).map reread := by
  induction fields with
  | nil => rfl
  | cons kv r ih =>
    rw [rereadFields, find?, find?, ih]
    split <;> rfl

/-- The parts of a record that was written. -/
theorem parts?_reread {known : List RecordField} {fields : Fields}
    (h : (fields.map (·.1)).Nodup)
    (hknown : ∀ f ∈ known, f.optional = true ∨ (find? f.name fields).isSome = true) :
    JsonSource.parts? known (.ofValue (reread (.object fields))) =
      some (known.map fun f => (find? f.name fields).map fun v => .ofValue v.reread) := by
  show JsonSource.objectParts? known (JsonSource.ofFields (rereadFields fields)) = _
  rw [JsonSource.objectParts?_of_found]
  · simp only [find?_rereadFields, Option.map_map, Function.comp_def]
  · rwa [map_fst_rereadFields]
  · intro f hf
    rw [find?_rereadFields, Option.isSome_map]
    exact hknown f hf

theorem hasLegible_iff {fields : Fields} :
    HasLegible fields ↔ ∀ kv ∈ fields, kv.2.IsLegible := by
  induction fields with
  | nil => exact ⟨fun _ => nofun, fun _ => trivial⟩
  | cons kv r ih =>
    rw [HasLegible, ih, List.forall_mem_cons]

end Json

/-- A record of two fields, both of which must be there. -/
theorem readsAs_pair {α β γ : Type} {k l : String} {first? : JsonSource → Option α}
    {second? : JsonSource → Option β} {read? : JsonSource → Option γ} {make : α → β → γ}
    {u v : Json} {a : α} {b : β} (hkeys : k ≠ l)
    (hread : ∀ s : JsonSource, read? s =
      match s.parts? [.required k, .required l] with
      | some [x, y] => do
        let a ← JsonSource.requiredPart? first? x
        let b ← JsonSource.requiredPart? second? y
        return make a b
      | _ => none)
    (hu : ReadsAs first? u a) (hv : ReadsAs second? v b) :
    ReadsAs read? (.object [(k, u), (l, v)]) (make a b) := by
  refine ⟨⟨hu.legible, hv.legible, trivial⟩, ?_⟩
  have hfirst : Json.find? k [(k, u), (l, v)] = some u := if_pos rfl
  have hsecond : Json.find? l [(k, u), (l, v)] = some v := by
    rw [Json.find?, if_neg hkeys.symm, Json.find?, if_pos rfl]
  have hnodup : ([(k, u), (l, v)].map Prod.fst).Nodup := by simpa using hkeys
  have hfound : ∀ f ∈ [RecordField.required k, .required l],
      f.optional = true ∨ (Json.find? f.name [(k, u), (l, v)]).isSome = true := by
    intro f hf
    simp only [List.mem_cons, List.not_mem_nil, or_false] at hf
    rcases hf with rfl | rfl
    · exact .inr (congrArg Option.isSome hfirst)
    · exact .inr (congrArg Option.isSome hsecond)
  have hparts := Json.parts?_reread hnodup hfound
  simp only [RecordField.required, List.map_cons, List.map_nil, hfirst, hsecond,
    Option.map_some] at hparts
  rw [hread, RecordField.required, RecordField.required, hparts]
  show (first? _).bind _ = _
  rw [hu.read]
  show (second? _).bind _ = _
  rw [hv.read]
  rfl

/-! ## Findings and reports -/

theorem Position.readsAs {p : Position} (hline : p.line < Nat.pow 2 32)
    (hcolumn : p.column < Nat.pow 2 32) : ReadsAs Position.ofJson? p.toJson p :=
  readsAs_pair (by decide) (fun _ => rfl) (readsAs_word hline) (readsAs_word hcolumn)

theorem SourceRange.readsAs (h : r.Fits) : ReadsAs SourceRange.ofJson? r.toJson r :=
  readsAs_pair (by decide) (fun _ => rfl) (Position.readsAs h.startLine h.startColumn)
    (Position.readsAs h.stopLine h.stopColumn)

namespace Finding

/-- The fields that a finding is written with. -/
def written (f : Finding) : Json.Fields :=
  [("id", .string f.id), ("title", .string f.title), ("severity", .string f.severity.label),
    ("message", .string f.message)] ++
  textField "suggestion" f.suggestion ++ textField "category" f.category ++
  [("confidence", .ofSingle f.confidence)] ++
  match f.range with
  | none => []
  | some r => [("range", r.toJson)]

theorem toJson_eq (f : Finding) : f.toJson = .object f.written := rfl

theorem keys_textField (name value : String) :
    ((textField name value).map (·.1)).Sublist [name] := by
  unfold textField
  split
  · exact List.nil_sublist _
  · exact List.Sublist.refl _

/-- No key stands twice. -/
theorem nodup_written (f : Finding) : (f.written.map (·.1)).Nodup := by
  have hrange : ((match f.range with
      | none => []
      | some r => [("range", r.toJson)] : Json.Fields).map (·.1)).Sublist ["range"] := by
    cases f.range with
    | none => exact List.nil_sublist _
    | some r => exact List.Sublist.refl _
  have hall : (f.written.map (·.1)).Sublist
      (["id", "title", "severity", "message"] ++ ["suggestion"] ++ ["category"] ++
        ["confidence"] ++ ["range"]) := by
    unfold written
    simp only [List.map_append]
    exact ((((List.Sublist.refl _).append (keys_textField _ _)).append
      (keys_textField _ _)).append (List.Sublist.refl _)).append hrange
  exact hall.nodup (by decide)

/-- What is found of a field that may be left out. -/
theorem find?_textField (key name value : String) :
    Json.find? key (textField name value) =
      if key = name ∧ value.isEmpty = false then some (.string value) else none := by
  unfold textField
  by_cases hempty : value.isEmpty = true
  · rw [if_pos hempty, hempty]
    simp [Json.find?]
  · rw [if_neg hempty]
    by_cases hkey : key = name <;> simp [Json.find?, hkey, hempty]

/-- What is found of a finding, field by field. -/
theorem find?_written (f : Finding) :
    fields.map (fun g => Json.find? g.name f.written) =
      [some (.string f.id), some (.string f.title), some (.string f.severity.label),
        some (.string f.message),
        if f.suggestion.isEmpty then none else some (.string f.suggestion),
        if f.category.isEmpty then none else some (.string f.category),
        some (.ofSingle f.confidence), f.range.map SourceRange.toJson] := by
  have hrange : ∀ key : String, Json.find? key (match f.range with
      | none => []
      | some r => [("range", r.toJson)] : Json.Fields) =
        if key = "range" then f.range.map SourceRange.toJson else none := by
    intro key
    cases f.range with
    | none => simp [Json.find?]
    | some r => simp [Json.find?]
  unfold fields written
  simp only [List.map_cons, List.map_nil, RecordField.required, RecordField.defaulted,
    Json.find?_append, find?_textField, hrange]
  simp [Json.find?]

/-- What a finding leaves out comes back as it was. -/
theorem defaultPart?_text (s : String) :
    JsonSource.defaultPart? JsonSource.text? ""
      ((if s.isEmpty then none else some (.string s)).map fun v : Json => .ofValue v.reread) =
        some s := by
  by_cases hempty : s.isEmpty = true
  · rw [if_pos hempty, String.isEmpty_iff.mp hempty]
    rfl
  · rw [if_neg hempty]
    rfl

theorem optionPart?_range (h : ∀ r, f.range = some r → ReadsAs SourceRange.ofJson? r.toJson r) :
    JsonSource.optionPart? SourceRange.ofJson?
      ((f.range.map SourceRange.toJson).map fun v : Json => .ofValue v.reread) =
        some f.range := by
  cases hrange : f.range with
  | none => rfl
  | some r =>
    have hread := (h r hrange).read
    show (SourceRange.ofJson? (.ofValue r.toJson.reread)).map some = _
    rw [hread]
    rfl

/-- Whatever a finding is written with is legible. -/
theorem hasLegible_written (hconfidence : (Json.ofSingle f.confidence).IsLegible)
    (hrange : ∀ r, f.range = some r → r.toJson.IsLegible) : Json.HasLegible f.written := by
  have htext : ∀ name value : String, ∀ kv ∈ textField name value, kv.2.IsLegible := by
    intro name value kv hkv
    unfold textField at hkv
    split at hkv
    · cases hkv
    · rw [List.mem_singleton.mp hkv]
      trivial
  refine Json.hasLegible_iff.mpr ?_
  unfold written
  intro kv hkv
  simp only [List.append_assoc] at hkv
  rcases List.mem_append.mp hkv with hkv | hkv
  · simp only [List.mem_cons, List.not_mem_nil, or_false] at hkv
    rcases hkv with rfl | rfl | rfl | rfl <;> trivial
  rcases List.mem_append.mp hkv with hkv | hkv
  · exact htext _ _ kv hkv
  rcases List.mem_append.mp hkv with hkv | hkv
  · exact htext _ _ kv hkv
  rcases List.mem_append.mp hkv with hkv | hkv
  · rw [List.mem_singleton.mp hkv]
    exact hconfidence
  · cases hr : f.range with
    | none =>
      rw [hr] at hkv
      cases hkv
    | some r =>
      rw [hr] at hkv
      rw [List.mem_singleton.mp hkv]
      exact hrange r hr

/-- A finding that was built is read as it was written. -/
theorem readsAs (h : f.IsBuilt) (hconfidence : f.confidence.ReadsBack) :
    ReadsAs ofJson? f.toJson f := by
  have hsingle := readsAs_single h.isFinite hconfidence
  have hrange : ∀ r, f.range = some r → ReadsAs SourceRange.ofJson? r.toJson r :=
    fun r hr => SourceRange.readsAs (h.fits hr)
  have hfound := find?_written f
  have hparts : JsonSource.parts? fields (.ofValue f.toJson.reread) =
      some ((fields.map fun g => Json.find? g.name f.written).map
        (Option.map fun v : Json => .ofValue v.reread)) := by
    rw [toJson_eq, Json.parts?_reread (nodup_written f), List.map_map]
    · rfl
    · intro g hg
      simp only [fields, List.map_cons, List.cons.injEq] at hfound
      obtain ⟨hid, htitle, hseverity, hmessage, -, -, hconfidence, -⟩ := hfound
      simp only [fields, List.mem_cons, List.not_mem_nil, or_false] at hg
      rcases hg with rfl | rfl | rfl | rfl | rfl | rfl | rfl | rfl
      · exact .inr (congrArg Option.isSome hid)
      · exact .inr (congrArg Option.isSome htitle)
      · exact .inr (congrArg Option.isSome hseverity)
      · exact .inr (congrArg Option.isSome hmessage)
      · exact .inl rfl
      · exact .inl rfl
      · exact .inr (congrArg Option.isSome hconfidence)
      · exact .inl rfl
  refine ⟨hasLegible_written hsingle.legible fun r hr => (hrange r hr).legible, ?_⟩
  have hread : JsonSource.requiredPart? JsonSource.single?
      ((some (Json.ofSingle f.confidence)).map fun v : Json => .ofValue v.reread) =
        some f.confidence := hsingle.read
  have hseverity : JsonSource.requiredPart? Severity.ofJson?
      ((some (Json.string f.severity.label)).map fun v : Json => .ofValue v.reread) =
        some f.severity := (readsAs_severity f.severity).read
  have htext : ∀ s : String, JsonSource.requiredPart? JsonSource.text?
      ((some (Json.string s)).map fun v : Json => .ofValue v.reread) = some s := fun _ => rfl
  unfold ofJson?
  rw [hparts, hfound]
  simp only [List.map_cons, List.map_nil, htext, hseverity, hread, defaultPart?_text,
    optionPart?_range hrange, Option.bind_eq_bind, Option.bind_some]
  rfl

end Finding

theorem FileReport.readsAs {file : FileReport}
    (h : ∀ f ∈ file.findings, ReadsAs Finding.ofJson? f.toJson f) :
    ReadsAs FileReport.ofJson? file.toJson file :=
  readsAs_pair (by decide) (fun _ => rfl) (readsAs_text file.path) (readsAs_list h)

namespace Report

/-- The JSON text of a report has its files in it, as they were. -/
theorem files?_render {report : Report} (hbuilt : ∀ f ∈ report.findings, f.IsBuilt)
    (hconfidence : ∀ f ∈ report.findings, f.confidence.ReadsBack) :
    files? (report.render .json) = some report.files := by
  have hfile : ∀ file ∈ report.files, ReadsAs FileReport.ofJson? file.toJson file := by
    intro file hfile
    refine FileReport.readsAs fun f hf => ?_
    have hmem : f ∈ report.findings := List.mem_flatMap.mpr ⟨file, hfile, hf⟩
    exact Finding.readsAs (hbuilt f hmem) (hconfidence f hmem)
  have hall := readsAs_list hfile
  unfold files? render toJson
  dsimp only
  rw [Json.ofText?_pretty hall.legible]
  exact hall.read

/-- A report with a finding that has everything, in characters of all kinds, one that has
nothing, and a file without findings. -/
def mixed : Report :=
  ⟨[⟨"cmd/größe.go",
    [((((Finding.basic "W\"1" "tab\there" .error "line\nbreak \\ \u0001").withSuggestion
        "→ 𝔘se errors.Is").withCategory "errors").withConfidence ⟨0x3F4CCCCD⟩).withRange
          ⟨⟨4, 1⟩, ⟨5, 0⟩⟩,
      .basic "W2" "" .hint ""]⟩, ⟨"", []⟩]⟩

/-- A report is read back with all that it has. -/
theorem files?_render_mixed :
    (∀ f ∈ mixed.findings, f.IsBuilt) ∧ (∀ f ∈ mixed.findings, f.confidence.ReadsBack) ∧
      files? (mixed.render .json) = some mixed.files := by
  have hbuilt : ∀ f ∈ mixed.findings, f.IsBuilt := by
    intro f hf
    rcases List.mem_cons.mp hf with rfl | hf
    · exact .withRange ⟨by decide, by decide, by decide, by decide⟩
        (.withConfidence _ (.withCategory _ (.withSuggestion _ (.basic ..))))
    · rw [List.mem_singleton.mp hf]
      exact .basic ..
  have hconfidence : ∀ f ∈ mixed.findings, f.confidence.ReadsBack := by
    intro f hf
    rcases List.mem_cons.mp hf with rfl | hf
    · show JsonSource.single? _ = _
      decide +kernel
    · rw [List.mem_singleton.mp hf]
      show JsonSource.single? _ = _
      decide +kernel
  exact ⟨hbuilt, hconfidence, files?_render hbuilt hconfidence⟩

end Report

end SmellWatch
