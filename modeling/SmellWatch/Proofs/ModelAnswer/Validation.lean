import SmellWatch.ModelAnswer
import SmellWatch.Proofs.Decimal.Text
import SmellWatch.Proofs.Text.Lines
import SmellWatch.Proofs.Text.Trimmed
/-! What the findings in an answer keep to.

The elements of an answer are read one by one: each yields one finding or nothing, whatever the
others are.  A finding is made of a record whose fields may all be missing or make no sense, and
still its texts are trimmed, its confidence is in the unit interval, and its range does not end
before it starts (`isValidated_of_finding?`).  So every finding of an answer is like this, and no
two ids that are made up for it are the same (`validated_of_findings`). -/

namespace SmellWatch

open Decimal Text

namespace Decimal.Single

theorem not_isNaN_clampUnit (x : Single) : x.clampUnit.isNaN = false := by
  unfold clampUnit
  split
  · decide
  · split
    · decide
    · split
      · decide
      · rename_i h _ _
        exact Bool.not_eq_true _ ▸ h

/-- Of two numbers one is at most the other. -/
theorem le_of_not_lt {x y : Single} (hx : x.isNaN = false) (hy : y.isNaN = false)
    (h : ¬ x < y) : y ≤ x := by
  change x.less y ≠ true at h
  change y.atMost x = true
  unfold less at h
  unfold atMost
  rw [hx, hy] at h ⊢
  simpa using h

theorem clampUnit_mem (x : Single) : 0 ≤ x.clampUnit ∧ x.clampUnit ≤ 1 := by
  unfold clampUnit
  split
  · decide
  · split
    · decide
    · split
      · decide
      · rename_i hnumber hlow hhigh
        have hx : x.isNaN = false := Bool.not_eq_true _ ▸ hnumber
        exact ⟨le_of_not_lt hx (by decide) hlow, le_of_not_lt (by decide) hx hhigh⟩

end Decimal.Single

namespace ModelAnswer

variable {index i j : Nat} {r : Record} {f g : Finding} {s t message : String} {v w : Json}
  {items : List Json} {fs : List Finding} {answer : String}

/-- The field is there, and there is more than blanks in it. -/
def Says (field : Option String) : Prop :=
  ∃ s, field = some s ∧ ∃ c ∈ s.toList, isBlank c = false

theorem nonBlank?_field_eq_none_iff (field : Option String) :
    field.bind nonBlank? = none ↔ ¬ Says field := by
  cases field with
  | none =>
    refine iff_of_true rfl ?_
    rintro ⟨s, hs, -⟩
    cases hs
  | some s =>
    rw [Option.bind_some, nonBlank?_eq_none_iff]
    constructor
    · rintro hblank ⟨t, ht, c, hin, hc⟩
      rw [Option.some.inj ht] at hblank
      rw [hblank c hin] at hc
      cases hc
    · intro hsays c hin
      by_contra hc
      exact hsays ⟨s, rfl, c, hin, Bool.not_eq_true _ ▸ hc⟩

/-- What is taken over from a field of a record. -/
theorem field_spec {field : Option String} (h : field.bind nonBlank? = some t) :
    t ≠ "" ∧ IsTrimmed t := by
  obtain ⟨s, -, hs⟩ := Option.bind_eq_some_iff.mp h
  exact nonBlank?_spec hs

theorem isTrimmed_field (field : Option String) :
    IsTrimmed ((field.bind nonBlank?).getD "") := by
  cases h : field.bind nonBlank? with
  | none => exact isTrimmed_empty
  | some t => exact (field_spec h).2

namespace Record

/-! ## Titles and messages -/

theorem summary_ne_empty (hne : message ≠ "") (h : IsTrimmed message) :
    summary message ≠ "" := by
  obtain ⟨c, cs, hcs⟩ : ∃ c cs, message.toList = c :: cs := by
    refine List.exists_cons_of_ne_nil fun hnil => hne ?_
    exact String.toList_eq_nil_iff.mp hnil
  unfold summary
  dsimp only
  split
  · exact firstLine_ne_empty (h.1 c cs hcs) hcs
  · intro hempty
    have hchars := congrArg String.toList hempty
    rw [String.toList_append] at hchars
    exact absurd (List.append_eq_nil_iff.mp hchars).2 (by decide)

/-- Only a record that says nothing in either field has no title and no message. -/
theorem texts?_eq_none_iff (r : Record) :
    r.texts? = none ↔ ¬ Says r.title ∧ ¬ Says r.message := by
  rw [← nonBlank?_field_eq_none_iff, ← nonBlank?_field_eq_none_iff]
  unfold texts?
  cases r.title.bind nonBlank? <;> cases r.message.bind nonBlank? <;> simp

theorem texts?_spec (h : r.texts? = some (t, message)) :
    t ≠ "" ∧ message ≠ "" ∧ IsTrimmed message := by
  unfold texts? at h
  cases htitle : r.title.bind nonBlank? with
  | none =>
    cases hmessage : r.message.bind nonBlank? with
    | none =>
      rw [htitle, hmessage] at h
      cases h
    | some m =>
      rw [htitle, hmessage] at h
      obtain ⟨rfl, rfl⟩ := Prod.mk.inj (Option.some.inj h)
      obtain ⟨hne, htrimmed⟩ := field_spec hmessage
      exact ⟨summary_ne_empty hne htrimmed, hne, htrimmed⟩
  | some title =>
    cases hmessage : r.message.bind nonBlank? with
    | none =>
      rw [htitle, hmessage] at h
      obtain ⟨rfl, rfl⟩ := Prod.mk.inj (Option.some.inj h)
      obtain ⟨hne, htrimmed⟩ := field_spec htitle
      exact ⟨hne, hne, htrimmed⟩
    | some m =>
      rw [htitle, hmessage] at h
      obtain ⟨rfl, rfl⟩ := Prod.mk.inj (Option.some.inj h)
      exact ⟨(field_spec htitle).1, field_spec hmessage⟩

/-! ## Ids that are made up -/

theorem toList_placeId (index : Nat) :
    ∃ zeros, (placeId index).toList =
      'W' :: (List.replicate zeros '0' ++ Nat.toDigits 10 (index + 1)) := by
  refine ⟨3 - (toString (index + 1)).length, ?_⟩
  unfold placeId
  simp only [String.toList_append, String.toList_ofList, toList_toString]
  rfl

/-- Different places have different ids. -/
theorem placeId_injective (h : placeId i = placeId j) : i = j := by
  obtain ⟨m, hi⟩ := toList_placeId i
  obtain ⟨n, hj⟩ := toList_placeId j
  rw [h, hj] at hi
  have hvalues := congrArg digitsValue (List.cons.inj hi).2
  rw [digitsValue_zeros_append, digitsValue_zeros_append, digitsValue_toDigits,
    digitsValue_toDigits] at hvalues
  omega

theorem isBlank_of_isDigit {c : Char} (h : c.isDigit = true) : isBlank c = false := by
  have hrange : 48 ≤ c.toNat ∧ c.toNat ≤ 57 := by
    simpa [Char.isDigit, UInt32.le_iff_toNat_le] using h
  unfold isBlank
  grind

theorem placeId_spec (index : Nat) : placeId index ≠ "" ∧ IsTrimmed (placeId index) := by
  obtain ⟨zeros, hchars⟩ := toList_placeId index
  constructor
  · intro hempty
    rw [hempty] at hchars
    cases hchars
  · unfold IsTrimmed
    rw [hchars]
    refine ⟨startsInked_cons (by decide) _, ?_⟩
    -- the last character is a digit
    rw [List.reverse_cons, List.reverse_append, List.append_assoc]
    refine StartsInked.append ?_ (by simp) _
    intro c rest heq
    refine isBlank_of_isDigit (areDigits_toDigits (index + 1) c (List.mem_reverse.mp ?_))
    rw [heq]
    exact List.mem_cons_self

theorem id_spec (r : Record) (index : Nat) :
    (r.id.bind nonBlank?).getD (placeId index) ≠ "" ∧
      IsTrimmed ((r.id.bind nonBlank?).getD (placeId index)) := by
  cases h : r.id.bind nonBlank? with
  | none => exact placeId_spec index
  | some t => exact field_spec h

/-! ## Ranges -/

/-- A record on a line has a range. -/
theorem exists_range? {line : Nat} (h : r.line = some line) (hpos : 1 ≤ line) :
    ∃ range, r.range? = some range := by
  have hfilter : r.line.filter (0 < ·) = some line :=
    Option.filter_eq_some_iff.mpr ⟨h, decide_eq_true hpos⟩
  unfold range?
  rw [hfilter]
  exact ⟨_, rfl⟩

/-- Where a range starts and ends.  It ends behind its first line unless the record says an end
that is not before the start. -/
theorem range?_spec {range : SourceRange} (h : r.range? = some range) :
    ∃ line, r.line = some line ∧ 1 ≤ line ∧
      range.start = ⟨line - 1, r.column.getD 1 - 1⟩ ∧
      (range.stop = ⟨line, 0⟩ ∨ range.stop.before range.start = false ∧
        ∃ endLine, r.endLine = some endLine ∧ line ≤ endLine ∧
          range.stop = ⟨endLine - 1, r.endColumn.getD 1 - 1⟩) := by
  obtain ⟨line, hline, rfl⟩ := Option.map_eq_some_iff.mp h
  obtain ⟨hrecord, hpos⟩ := Option.filter_eq_some_iff.mp hline
  refine ⟨line, hrecord, of_decide_eq_true hpos, rfl, ?_⟩
  dsimp only
  cases hend : r.endLine.filter (line ≤ ·) with
  | none => exact .inl (ite_self _)
  | some endLine =>
    obtain ⟨hrecord', hle⟩ := Option.filter_eq_some_iff.mp hend
    dsimp only
    split
    · exact .inl rfl
    · rename_i hbefore
      exact .inr ⟨Bool.not_eq_true _ ▸ hbefore, endLine, hrecord', of_decide_eq_true hle, rfl⟩

/-- A range does not end before it starts. -/
theorem range?_ordered {range : SourceRange} (h : r.range? = some range) :
    range.stop.before range.start = false := by
  obtain ⟨line, -, hpos, hstart, hstop | ⟨hordered, -⟩⟩ := range?_spec h
  · -- the end of the first line is behind everything on it
    have hbehind : line ≠ line - 1 := by omega
    rw [hstart, hstop]
    simp [Position.before, hbehind]
  · exact hordered

end Record

/-! ## Findings -/

/-- What a finding of the record at a place keeps to. -/
structure IsValidated (index : Nat) (r : Record) (f : Finding) : Prop where
  id_ne_empty : f.id ≠ ""
  id_trimmed : IsTrimmed f.id
  /-- Without an id of its own the record gets the one of its place. -/
  id_of_place : ¬ Says r.id → f.id = Record.placeId index
  title_ne_empty : f.title ≠ ""
  message_ne_empty : f.message ≠ ""
  message_trimmed : IsTrimmed f.message
  confidence_isNumber : f.confidence.isNaN = false
  confidence_nonneg : 0 ≤ f.confidence
  confidence_le_one : f.confidence ≤ 1
  /-- An empty suggestion is trimmed, too. -/
  suggestion_trimmed : IsTrimmed f.suggestion
  category_trimmed : IsTrimmed f.category
  category_lower : ∀ c ∈ f.category.toList, c.isUpper = false
  range_ordered : ∀ range, f.range = some range → range.stop.before range.start = false
  /-- Lines of a record count from one. -/
  range_line : ∀ range, f.range = some range →
    ∃ line, r.line = some line ∧ range.start.line + 1 = line

theorem isValidated_of_finding? (h : r.finding? index = some f) : IsValidated index r f := by
  obtain ⟨⟨title, message⟩, htexts, rfl⟩ := Option.map_eq_some_iff.mp h
  obtain ⟨htitle, hmessage, htrimmed⟩ := Record.texts?_spec htexts
  obtain ⟨hid, hidTrimmed⟩ := r.id_spec index
  refine
    { id_ne_empty := hid
      id_trimmed := hidTrimmed
      id_of_place := fun hsays => ?_
      title_ne_empty := htitle
      message_ne_empty := hmessage
      message_trimmed := htrimmed
      confidence_isNumber := Single.not_isNaN_clampUnit _
      confidence_nonneg := (Single.clampUnit_mem _).1
      confidence_le_one := (Single.clampUnit_mem _).2
      suggestion_trimmed := isTrimmed_field r.suggestion
      category_trimmed := (isTrimmed_field r.category).asciiLower
      category_lower := fun c hc => isUpper_of_mem_asciiLower hc
      range_ordered := fun range hrange => Record.range?_ordered hrange
      range_line := fun range hrange => ?_ }
  · dsimp only
    rw [(nonBlank?_field_eq_none_iff r.id).mpr hsays]
    rfl
  · obtain ⟨line, hline, hpos, hstart, -⟩ := Record.range?_spec hrange
    refine ⟨line, hline, ?_⟩
    rw [hstart]
    exact Nat.sub_add_cancel hpos

/-! ## Elements of an answer -/

/-- An element yields nothing if it is no record, or one without title and message. -/
theorem elementFinding?_eq_none_iff (i : Nat) (v : Json) :
    elementFinding? i v = none ↔
      ∀ r, Record.ofJson? v = some r → ¬ Says r.title ∧ ¬ Says r.message := by
  have hfinding : ∀ r : Record, r.finding? i = none ↔ ¬ Says r.title ∧ ¬ Says r.message := by
    intro r
    unfold Record.finding?
    rw [Option.map_eq_none_iff, r.texts?_eq_none_iff]
  unfold elementFinding?
  cases Record.ofJson? v with
  | none =>
    rw [Option.bind_none]
    exact iff_of_true rfl fun _ h => nomatch h
  | some r =>
    rw [Option.bind_some, hfinding]
    constructor
    · intro h r' heq
      obtain rfl := Option.some.inj heq
      exact h
    · exact fun h => h r rfl

/-- The element makes the finding, and says no id for it. -/
def MakesUpId (i : Nat) (v : Json) (f : Finding) : Prop :=
  elementFinding? i v = some f ∧ ∃ r, Record.ofJson? v = some r ∧ ¬ Says r.id

theorem MakesUpId.id_eq (h : MakesUpId i v f) : f.id = Record.placeId i := by
  obtain ⟨helement, r, hr, hsays⟩ := h
  rw [elementFinding?, hr, Option.bind_some] at helement
  exact (isValidated_of_finding? helement).id_of_place hsays

/-- What the elements yield is what each of them yields, one after the other. -/
theorem elementFindings_eq_flatten (items : List Json) :
    elementFindings items = (items.mapIdx fun i v => (elementFinding? i v).toList).flatten := by
  unfold elementFindings
  rw [List.filterMap_eq_flatMap_toList, List.flatMap_def, List.mapIdx_eq_zipIdx_map, List.map_map,
    List.mapIdx_eq_zipIdx_map]
  rfl

theorem mem_elementFindings_iff :
    f ∈ elementFindings items ↔ ∃ i v, items[i]? = some v ∧ elementFinding? i v = some f := by
  unfold elementFindings
  rw [List.mem_filterMap]
  constructor
  · rintro ⟨_, hin, rfl⟩
    obtain ⟨i, hi⟩ := List.mem_iff_getElem?.mp hin
    rw [List.getElem?_mapIdx] at hi
    obtain ⟨v, hv, hf⟩ := Option.map_eq_some_iff.mp hi
    exact ⟨i, v, hv, hf⟩
  · rintro ⟨i, v, hv, hf⟩
    refine ⟨some f, List.mem_iff_getElem?.mpr ⟨i, ?_⟩, rfl⟩
    rw [List.getElem?_mapIdx, hv, Option.map_some, hf]

theorem elements_of_findings (h : findings answer = .ok fs) :
    ∃ items, elements answer = .ok items ∧ fs = elementFindings items := by
  unfold findings at h
  cases hitems : elements answer with
  | error e =>
    rw [hitems] at h
    cases h
  | ok items =>
    rw [hitems] at h
    exact ⟨items, rfl, (Except.ok.inj h).symm⟩

/-- What the findings of an answer with these elements keep to. -/
structure AreValidated (items : List Json) (fs : List Finding) : Prop where
  /-- One after the other, each element yields what it yields at its place. -/
  in_order : fs = (items.mapIdx fun i v => (elementFinding? i v).toList).flatten
  /-- What is no record, or has neither title nor message, yields nothing. -/
  nothing_iff : ∀ i v, elementFinding? i v = none ↔
    ∀ r, Record.ofJson? v = some r → ¬ Says r.title ∧ ¬ Says r.message
  each : ∀ f ∈ fs, ∃ i v r, items[i]? = some v ∧ elementFinding? i v = some f ∧
    Record.ofJson? v = some r ∧ IsValidated i r f
  /-- Ids that are made up are pairwise different. -/
  ids_differ : ∀ i j v w f g, MakesUpId i v f → MakesUpId j w g → i ≠ j → f.id ≠ g.id

/-- The findings of an answer are those of its elements in their order, and are all in shape. -/
theorem validated_of_findings (h : findings answer = .ok fs) :
    ∃ items, elements answer = .ok items ∧ AreValidated items fs := by
  obtain ⟨items, hitems, rfl⟩ := elements_of_findings h
  refine ⟨items, hitems, elementFindings_eq_flatten items, elementFinding?_eq_none_iff, ?_, ?_⟩
  · intro f hf
    obtain ⟨i, v, hv, helement⟩ := mem_elementFindings_iff.mp hf
    obtain ⟨r, hr, hfinding⟩ := Option.bind_eq_some_iff.mp helement
    exact ⟨i, v, r, hv, helement, hr, isValidated_of_finding? hfinding⟩
  · intro i j v w f g hf hg hne heq
    rw [hf.id_eq, hg.id_eq] at heq
    exact hne (Record.placeId_injective heq)

/-- Two records without ids, the first with an end before its start, around one that is none. -/
def mixedAnswer : String :=
  "[\x7b\"title\":\" a \",\"category\":\" Style\",\"confidence\":7,\"line\":10,\"column\":5," ++
    "\"end_line\":10,\"end_column\":1\x7d,\x7b\"title\":\"b\",\"line\":-1\x7d," ++
    "\x7b\"message\":\"c\\nd\"\x7d]"

/-- The findings in it. -/
def mixedFindings : List Finding :=
  [{ id := "W001", title := "a", severity := .warning, message := "a", category := "style",
     range := some ⟨⟨9, 4⟩, ⟨10, 0⟩⟩ },
    { id := "W003", title := "c", severity := .warning, message := "c\nd", confidence := .half }]

theorem validated_of_findings_mixed :
    findings mixedAnswer = .ok mixedFindings ∧
      ∃ items, elements mixedAnswer = .ok items ∧ AreValidated items mixedFindings := by
  have h : findings mixedAnswer = .ok mixedFindings := by decide +kernel
  exact ⟨h, validated_of_findings h⟩

end ModelAnswer

end SmellWatch
