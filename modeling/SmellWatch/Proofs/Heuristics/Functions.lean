import SmellWatch.Proofs.Heuristics.Ids
import SmellWatch.Proofs.Text.Blank
/-! What is found about functions as a whole: that they are long, and that they are deeply nested.

A function is opened by its head, at depth zero, and is open up to the first line that ends at
depth zero again (`FunctionOpen`). The scanner keeps exactly the function that is open on a line
(`tracks_functionAt`, `exists_functionAt`), and whether one of its lines was deep. So its length is
told on the line that closes it (`mem_told_longFunction_iff`), and its nesting on the first line
that ends deep (`mem_told_deepNesting_iff`).

With the last line of a function computed from the depths (`functionEnd`), this is what a scan has
to say about each function, and it says nothing else of the two rules (`functions_of_scan`). -/

namespace SmellWatch.Heuristics

open GoSource

variable {n s s' line : Nat} {name name' : String} {codes : List (List Char)}
  {f : OpenFunction} {x : Finding} {code : List Char}

/-! ## Depths -/

theorem depthAfter_append (depth : Nat) (u v : List Char) :
    depthAfter depth (u ++ v) = depthAfter (depthAfter depth u) v := List.foldl_append

theorem depthAfter_blank (depth : Nat) (h : code.all Text.isBlank = true) :
    depthAfter depth code = depth := by
  induction code with
  | nil => rfl
  | cons c r ih =>
    rw [List.all_cons, Bool.and_eq_true] at h
    have hopen : c ≠ '{' := by
      rintro rfl
      exact absurd h.1 (by decide)
    have hclose : c ≠ '}' := by
      rintro rfl
      exact absurd h.1 (by decide)
    show depthAfter (if c = '{' then depth + 1 else if c = '}' then depth - 1 else depth) r = depth
    rw [if_neg hopen, if_neg hclose, ih h.2]

/-- A line that ends in an opening brace leaves it open. -/
theorem depthAfter_pos (depth : Nat) (h : (Text.trimChars code).getLast? = some '{') :
    0 < depthAfter depth code := by
  obtain ⟨front, tail, hcode, -, htail⟩ := Text.exists_trimChars_eq code
  obtain ⟨ys, hys⟩ := List.getLast?_eq_some_iff.mp h
  rw [hcode, hys, depthAfter_append, depthAfter_append, depthAfter_append,
    depthAfter_blank _ htail]
  exact Nat.succ_pos _

/-! ## Functions of a text -/

/-- The line is the head of a function: at depth zero, and its last sign is an opening brace. -/
def OpensFunction (codes : List (List Char)) (s : Nat) (name : String) : Prop :=
  depthBefore codes s = 0 ∧ functionName? (lineAt codes s) = some name ∧
    (lineAt codes s).getLast? = some '{'

instance (codes : List (List Char)) (s : Nat) (name : String) :
    Decidable (OpensFunction codes s name) := inferInstanceAs (Decidable (_ ∧ _ ∧ _))

/-- The function of this name whose head is line `s` is open on line `n`. -/
structure FunctionOpen (codes : List (List Char)) (s : Nat) (name : String) (n : Nat) : Prop where
  opens : OpensFunction codes s name
  le : s ≤ n
  deep : ∀ k, s ≤ k → k < n → depthAtEnd codes k ≠ 0

/-- The first line after the head that ends at depth zero; if there is none, the last line. -/
def functionEnd (codes : List (List Char)) (s : Nat) : Nat :=
  ((List.range' (s + 1) (codes.length - (s + 1))).find? fun e => depthAtEnd codes e = 0).getD
    (codes.length - 1)

theorem OpensFunction.lt_length (h : OpensFunction codes s name) : s < codes.length := by
  by_contra hge
  have hnone : lineAt codes s = [] := by
    unfold lineAt
    rw [List.getD_eq_getElem?_getD, List.getElem?_eq_none (by omega)]
    rfl
  have hname := h.2.1
  rw [hnone] at hname
  cases hname

theorem OpensFunction.depthAtEnd_pos (h : OpensFunction codes s name) :
    0 < depthAtEnd codes s := by
  rw [depthAtEnd_eq]
  exact depthAfter_pos _ h.2.2

theorem OpensFunction.isOpen (h : OpensFunction codes s name) : FunctionOpen codes s name s :=
  ⟨h, Nat.le_refl s, fun k _ _ => by omega⟩

theorem functionEnd_spec (hs : s < codes.length) :
    s ≤ functionEnd codes s ∧ functionEnd codes s < codes.length ∧
      (∀ k, s < k → k < functionEnd codes s → depthAtEnd codes k ≠ 0) ∧
      (depthAtEnd codes (functionEnd codes s) = 0 ∨ functionEnd codes s = codes.length - 1) := by
  unfold functionEnd
  cases h : (List.range' (s + 1) (codes.length - (s + 1))).find? fun e =>
      depthAtEnd codes e = 0 with
  | some e =>
    obtain ⟨hzero, hmem, hfirst⟩ := List.find?_range'_eq_some.mp h
    rw [List.mem_range'_1] at hmem
    rw [Option.getD_some]
    refine ⟨by omega, by omega, fun k hk hke => ?_, .inl (of_decide_eq_true hzero)⟩
    simpa using hfirst k hk hke
  | none =>
    have hnone := List.find?_range'_eq_none.mp h
    rw [Option.getD_none]
    refine ⟨by omega, by omega, fun k hk hke => ?_, .inr rfl⟩
    simpa using hnone k hk (by omega)

/-- A function is open from its head up to its end. -/
theorem functionOpen_iff (h : OpensFunction codes s name) (hn : n < codes.length) :
    FunctionOpen codes s name n ↔ s ≤ n ∧ n ≤ functionEnd codes s := by
  obtain ⟨hle, hlt, hdeep, hend⟩ := functionEnd_spec h.lt_length
  constructor
  · intro hopen
    refine ⟨hopen.le, ?_⟩
    by_contra hgt
    rcases hend with hzero | hlast
    · exact hopen.deep _ hle (by omega) hzero
    · omega
  · rintro ⟨hsn, hne⟩
    refine ⟨h, hsn, fun k hk hkn => ?_⟩
    rcases Nat.eq_or_lt_of_le hk with rfl | hlt
    · exact Nat.pos_iff_ne_zero.mp h.depthAtEnd_pos
    · exact hdeep k hlt (by omega)

/-- Only one function is open on a line. -/
theorem FunctionOpen.unique (h : FunctionOpen codes s name n) (h' : FunctionOpen codes s' name' n) :
    s = s' ∧ name = name' := by
  have hstart : ∀ {a b : Nat} {p q : String}, FunctionOpen codes a p n → FunctionOpen codes b q n →
      ¬ a < b := by
    intro a b p q ha hb hlt
    have hbefore := ha.deep (b - 1) (by omega) (by have := hb.le; omega)
    unfold depthAtEnd at hbefore
    rw [Nat.sub_add_cancel (by omega)] at hbefore
    exact hbefore hb.opens.1
  obtain rfl : s = s' := Nat.le_antisymm (Nat.le_of_not_lt (hstart h' h))
    (Nat.le_of_not_lt (hstart h h'))
  exact ⟨rfl, Option.some.inj (h.opens.2.1.symm.trans h'.opens.2.1)⟩

/-- A function that is open on a line that ends at depth zero is closed there. -/
theorem FunctionOpen.eq_functionEnd (h : FunctionOpen codes s name n) (hn : n < codes.length)
    (hzero : depthAtEnd codes n = 0) : n = functionEnd codes s := by
  obtain ⟨hle, hlt, -, -⟩ := functionEnd_spec h.opens.lt_length
  have hend := (functionOpen_iff h.opens hlt).mpr ⟨hle, Nat.le_refl _⟩
  have hne := ((functionOpen_iff h.opens hn).mp h).2
  by_contra hdiff
  exact hend.deep n h.le (by omega) hzero

/-! ## The function that the scanner keeps -/

/-- At depth zero only the function is open whose head the line is. -/
theorem functionOpen_of_zero (hzero : depthBefore codes n = 0) :
    FunctionOpen codes s name n ↔ s = n ∧ OpensFunction codes n name := by
  constructor
  · intro h
    rcases Nat.eq_or_lt_of_le h.le with rfl | hlt
    · exact ⟨rfl, h.opens⟩
    · have hbefore := h.deep (n - 1) (by omega) (by omega)
      unfold depthAtEnd at hbefore
      rw [Nat.sub_add_cancel (by omega)] at hbefore
      exact absurd hzero hbefore
  · rintro ⟨rfl, h⟩
    exact h.isOpen

/-- Where the depth is not zero, the function is open that was open on the line before. -/
theorem functionOpen_succ (hdeep : depthBefore codes (n + 1) ≠ 0) :
    FunctionOpen codes s name (n + 1) ↔ FunctionOpen codes s name n := by
  constructor
  · intro h
    have hne : s ≠ n + 1 := by
      rintro rfl
      exact hdeep h.opens.1
    have hle := h.le
    exact ⟨h.opens, by omega, fun k hk hkn => h.deep k hk (by omega)⟩
  · intro h
    refine ⟨h.opens, Nat.le_succ_of_le h.le, fun k hk hkn => ?_⟩
    rcases Nat.lt_succ_iff_lt_or_eq.mp hkn with hlt | rfl
    · exact h.deep k hk hlt
    · exact hdeep

/-- The function that the scanner has open on a line of the text. -/
def functionAt (codes : List (List Char)) (n : Nat) : Option OpenFunction :=
  functionOn (stateBefore codes n) n (codes.getD n [])

theorem function_stateBefore_succ (codes : List (List Char)) (n : Nat) :
    (stateBefore codes (n + 1)).function = if depthAtEnd codes n = 0 then none else
      (functionAt codes n).map (OpenFunction.deepened (depthAtEnd codes n)) := by
  rw [stateBefore, scanLine_eq, depth_stateBefore, ← depthAtEnd_eq]
  rfl

/-- At depth zero the scanner has no function but the one that the line opens. -/
theorem functionAt_of_zero (hzero : depthBefore codes n = 0) :
    functionAt codes n = headOf? n (lineAt codes n) := by
  have hnone : (stateBefore codes n).function = none := by
    cases n with
    | zero => rfl
    | succ n =>
      rw [function_stateBefore_succ]
      exact if_pos hzero
  unfold functionAt functionOn
  rw [depth_stateBefore, if_pos hzero, hnone, Option.or_none]
  rfl

theorem functionAt_succ (hdeep : depthBefore codes (n + 1) ≠ 0) :
    functionAt codes (n + 1) =
      (functionAt codes n).map (OpenFunction.deepened (depthAtEnd codes n)) := by
  have hfunction := function_stateBefore_succ codes n
  rw [if_neg (show depthAtEnd codes n ≠ 0 from hdeep)] at hfunction
  show functionOn _ _ _ = _
  unfold functionOn
  rw [depth_stateBefore, if_neg hdeep, hfunction]

/-- What the scanner keeps of a function is so. -/
structure Tracks (codes : List (List Char)) (n : Nat) (f : OpenFunction) : Prop where
  isOpen : FunctionOpen codes f.start f.name n
  nested : f.nestingReported = true ↔
    ∃ k, f.start ≤ k ∧ k < n ∧ deepestNesting ≤ depthAtEnd codes k

theorem headOf?_eq_some (h : headOf? line code = some f) :
    functionName? code = some f.name ∧ code.getLast? = some '{' ∧ f.start = line ∧
      f.nestingReported = false := by
  unfold headOf? at h
  split at h
  · rename_i hbrace
    obtain ⟨name, hname, rfl⟩ := Option.map_eq_some_iff.mp h
    exact ⟨hname, hbrace, rfl, rfl⟩
  · cases h

theorem tracks_functionAt (h : functionAt codes n = some f) : Tracks codes n f := by
  induction n generalizing f with
  | zero =>
    rw [functionAt_of_zero rfl] at h
    obtain ⟨hname, hbrace, hstart, hreported⟩ := headOf?_eq_some h
    refine ⟨(functionOpen_of_zero rfl).mpr ⟨hstart, rfl, hname, hbrace⟩, ?_⟩
    rw [hreported]
    exact iff_of_false (by decide) fun ⟨k, _, hk, _⟩ => by omega
  | succ n ih =>
    by_cases hzero : depthBefore codes (n + 1) = 0
    · rw [functionAt_of_zero hzero] at h
      obtain ⟨hname, hbrace, hstart, hreported⟩ := headOf?_eq_some h
      refine ⟨(functionOpen_of_zero hzero).mpr ⟨hstart, hzero, hname, hbrace⟩, ?_⟩
      rw [hreported]
      exact iff_of_false (by decide) fun ⟨k, hk, hkn, _⟩ => by omega
    · rw [functionAt_succ hzero] at h
      obtain ⟨g, hg, rfl⟩ := Option.map_eq_some_iff.mp h
      have htracks := ih hg
      have hle := htracks.isOpen.le
      refine ⟨(functionOpen_succ hzero).mpr htracks.isOpen, ?_⟩
      show (g.nestingReported || decide (deepestNesting ≤ depthAtEnd codes n)) = true ↔ _
      rw [Bool.or_eq_true, htracks.nested, decide_eq_true_iff]
      constructor
      · rintro (⟨k, hk, hkn, hdeep⟩ | hdeep)
        · exact ⟨k, hk, by omega, hdeep⟩
        · exact ⟨n, hle, by omega, hdeep⟩
      · rintro ⟨k, hk, hkn, hdeep⟩
        rcases Nat.lt_succ_iff_lt_or_eq.mp hkn with hlt | rfl
        · exact .inl ⟨k, hk, hlt, hdeep⟩
        · exact .inr hdeep

/-- The scanner keeps the function that is open. -/
theorem exists_functionAt (h : FunctionOpen codes s name n) :
    ∃ f, functionAt codes n = some f ∧ f.start = s ∧ f.name = name := by
  induction n with
  | zero =>
    obtain ⟨rfl, -, hname, hbrace⟩ := (functionOpen_of_zero rfl).mp h
    rw [functionAt_of_zero rfl, headOf?, if_pos hbrace, hname]
    exact ⟨_, rfl, rfl, rfl⟩
  | succ n ih =>
    by_cases hzero : depthBefore codes (n + 1) = 0
    · obtain ⟨rfl, -, hname, hbrace⟩ := (functionOpen_of_zero hzero).mp h
      rw [functionAt_of_zero hzero, headOf?, if_pos hbrace, hname]
      exact ⟨_, rfl, rfl, rfl⟩
    · obtain ⟨f, hf, hstart, hname⟩ := ih ((functionOpen_succ hzero).mp h)
      rw [functionAt_succ hzero, hf]
      exact ⟨_, rfl, hstart, hname⟩

/-! ## What is found of the two rules -/

/-- The length of a function is told when it is closed. -/
theorem mem_told_longFunction_iff :
    x ∈ told .longFunction (stateBefore codes n) ↔ ∃ m < n, ∃ s name,
      FunctionOpen codes s name m ∧ depthAtEnd codes m = 0 ∧ longestFunction < m - s - 1 ∧
        x = Rule.longFunction.at_ s (longMessage name (m - s - 1)) := by
  have hnew : ∀ m, told .longFunction (stateBefore codes (m + 1)) =
      told .longFunction (stateBefore codes m) ++
        lengthOn m (depthAtEnd codes m) (functionAt codes m) := by
    intro m
    rw [stateBefore, told_longFunction_scanLine, depth_stateBefore, ← depthAtEnd_eq]
    rfl
  rw [mem_told_iff hnew]
  refine exists_congr fun m => and_congr_right fun _ => ?_
  constructor
  · intro hx
    unfold lengthOn at hx
    split at hx
    · rename_i f hf
      split at hx
      · rename_i hlong
        exact ⟨f.start, f.name, (tracks_functionAt hf).isOpen, hlong.1, hlong.2,
          List.mem_singleton.mp hx⟩
      · cases hx
    · cases hx
  · rintro ⟨s, name, hopen, hzero, hlong, rfl⟩
    obtain ⟨f, hf, rfl, rfl⟩ := exists_functionAt hopen
    rw [hf, lengthOn, if_pos ⟨hzero, hlong⟩]
    exact List.mem_singleton_self _

/-- The nesting of a function is told on the first line that is deep. -/
theorem mem_told_deepNesting_iff :
    x ∈ told .deepNesting (stateBefore codes n) ↔ ∃ m < n, ∃ s name,
      FunctionOpen codes s name m ∧ deepestNesting ≤ depthAtEnd codes m ∧
        (∀ k, s ≤ k → k < m → depthAtEnd codes k < deepestNesting) ∧
          x = Rule.deepNesting.at_ m := by
  have hnew : ∀ m, told .deepNesting (stateBefore codes (m + 1)) =
      told .deepNesting (stateBefore codes m) ++
        nestingOn m (depthAtEnd codes m) (functionAt codes m) := by
    intro m
    rw [stateBefore, told_deepNesting_scanLine, depth_stateBefore, ← depthAtEnd_eq]
    rfl
  rw [mem_told_iff hnew]
  refine exists_congr fun m => and_congr_right fun _ => ?_
  constructor
  · intro hx
    unfold nestingOn at hx
    split at hx
    · rename_i f hf
      split at hx
      · rename_i hfirst
        have htracks := tracks_functionAt hf
        refine ⟨f.start, f.name, htracks.isOpen, hfirst.1, fun k hk hkm => ?_,
          List.mem_singleton.mp hx⟩
        by_contra hge
        have hreported := htracks.nested.mpr ⟨k, hk, hkm, by omega⟩
        rw [hfirst.2] at hreported
        cases hreported
      · cases hx
    · cases hx
  · rintro ⟨s, name, hopen, hdeep, hfirst, rfl⟩
    obtain ⟨f, hf, rfl, rfl⟩ := exists_functionAt hopen
    have hnot : f.nestingReported = false := by
      rw [← Bool.not_eq_true, (tracks_functionAt hf).nested]
      rintro ⟨k, hk, hkm, hge⟩
      have := hfirst k hk hkm
      omega
    rw [hf, nestingOn, if_pos ⟨hdeep, hnot⟩]
    exact List.mem_singleton_self _

/-! ## Scans -/

theorem filter_eq_singleton {found : List Finding} {p : Finding → Bool} (hfound : found.Nodup)
    (h : ∀ y, (y ∈ found ∧ p y = true) ↔ y = x) : found.filter p = [x] := by
  refine List.perm_singleton.mp ?_
  rw [List.perm_ext_iff_of_nodup (hfound.filter _) (List.nodup_singleton x)]
  intro y
  rw [List.mem_filter, h, List.mem_singleton]

/-- What is found about a function: one finding on its head if it is closed and long, and one on its
first deep line if it has one. -/
structure Judges (codes : List (List Char)) (found : List Finding) (s : Nat) (name : String) :
    Prop where
  length : found.filter (fun f => Rule.longFunction.isSource f && startLine f = s) =
    if depthAtEnd codes (functionEnd codes s) = 0 ∧ 60 < functionEnd codes s - s - 1 then
      [Rule.longFunction.at_ s (longMessage name (functionEnd codes s - s - 1))]
    else []
  nesting : found.filter (fun f => Rule.deepNesting.isSource f && s ≤ startLine f &&
      startLine f ≤ functionEnd codes s) =
    ((List.range' s (functionEnd codes s + 1 - s)).find? fun l =>
      5 ≤ depthAtEnd codes l).toList.map (Rule.deepNesting.at_ ·)

/-- The length of a function, in all of the text. -/
theorem mem_told_longFunction_at (hs : OpensFunction codes s name) :
    (x ∈ told .longFunction (stateBefore codes codes.length) ∧ startLine x = s) ↔
      (depthAtEnd codes (functionEnd codes s) = 0 ∧ 60 < functionEnd codes s - s - 1) ∧
        x = Rule.longFunction.at_ s (longMessage name (functionEnd codes s - s - 1)) := by
  rw [mem_told_longFunction_iff]
  constructor
  · rintro ⟨⟨m, hm, s', name', hopen, hzero, hlong, rfl⟩, rfl⟩
    obtain rfl : name' = name := Option.some.inj (hopen.opens.2.1.symm.trans hs.2.1)
    obtain rfl := hopen.eq_functionEnd hm hzero
    exact ⟨⟨hzero, hlong⟩, rfl⟩
  · rintro ⟨⟨hzero, hlong⟩, rfl⟩
    obtain ⟨hle, hlt, -, -⟩ := functionEnd_spec hs.lt_length
    exact ⟨⟨_, hlt, s, name, (functionOpen_iff hs hlt).mpr ⟨hle, Nat.le_refl _⟩, hzero, hlong, rfl⟩,
      rfl⟩

/-- The nesting of a function, in all of the text. -/
theorem mem_told_deepNesting_at (hs : OpensFunction codes s name) :
    (x ∈ told .deepNesting (stateBefore codes codes.length) ∧ s ≤ startLine x ∧
        startLine x ≤ functionEnd codes s) ↔
      ∃ m, ((List.range' s (functionEnd codes s + 1 - s)).find? fun l =>
        5 ≤ depthAtEnd codes l) = some m ∧ x = Rule.deepNesting.at_ m := by
  rw [mem_told_deepNesting_iff]
  constructor
  · rintro ⟨⟨m, hm, s', name', hopen, hdeep, hfirst, rfl⟩, hle, hend⟩
    have hthis := (functionOpen_iff hs hm).mpr ⟨hle, hend⟩
    obtain ⟨rfl, rfl⟩ := hopen.unique hthis
    refine ⟨m, List.find?_range'_eq_some.mpr ⟨decide_eq_true hdeep, ?_, fun k hk hkm => ?_⟩, rfl⟩
    · rw [List.mem_range'_1]
      rw [startLine_at] at hle hend
      omega
    · have hshallow := hfirst k hk hkm
      unfold deepestNesting at hshallow
      simpa using hshallow
  · rintro ⟨m, hfind, rfl⟩
    obtain ⟨hdeep, hmem, hfirst⟩ := List.find?_range'_eq_some.mp hfind
    rw [List.mem_range'_1] at hmem
    obtain ⟨hle, hlt, -, -⟩ := functionEnd_spec hs.lt_length
    refine ⟨⟨m, by omega, s, name, (functionOpen_iff hs (by omega)).mpr (by omega),
      of_decide_eq_true hdeep, fun k hk hkm => ?_, rfl⟩, ?_⟩
    · have hshallow := hfirst k hk hkm
      unfold deepestNesting
      simpa using hshallow
    · rw [startLine_at]
      omega

theorem judges_scan {document : DocumentId} {content : String}
    (hgo : languageOf document.name = "go") (hs : OpensFunction (strippedLines content) s name) :
    Judges (strippedLines content) (scan document content) s name := by
  have hnodup : (scan document content).Nodup := (nodup_idsOf_scan document content).of_map
  have hlength : ∀ y, (y ∈ scan document content ∧
      (Rule.longFunction.isSource y && startLine y = s) = true) ↔ _ := fun y => by
    rw [Bool.and_eq_true, ← and_assoc, mem_scan_and_isSource_iff hgo, decide_eq_true_iff,
      mem_told_longFunction_at hs]
  have hnesting : ∀ y, (y ∈ scan document content ∧ (Rule.deepNesting.isSource y &&
      s ≤ startLine y && startLine y ≤ functionEnd (strippedLines content) s) = true) ↔ _ :=
    fun y => by
      rw [Bool.and_eq_true, Bool.and_eq_true, and_assoc, ← and_assoc,
        mem_scan_and_isSource_iff hgo, decide_eq_true_iff, decide_eq_true_iff,
        mem_told_deepNesting_at hs]
  constructor
  · split
    · rename_i hlong
      exact filter_eq_singleton hnodup fun y => (hlength y).trans (and_iff_right hlong)
    · rename_i hshort
      exact List.filter_eq_nil_iff.mpr fun y hy hp => hshort ((hlength y).mp ⟨hy, hp⟩).1
  · cases hfind : (List.range' s (functionEnd (strippedLines content) s + 1 - s)).find? fun l =>
        5 ≤ depthAtEnd (strippedLines content) l with
    | none =>
      refine List.filter_eq_nil_iff.mpr fun y hy hp => ?_
      obtain ⟨m, hm, -⟩ := (hnesting y).mp ⟨hy, hp⟩
      rw [hfind] at hm
      cases hm
    | some m =>
      refine filter_eq_singleton hnodup fun y => (hnesting y).trans ?_
      rw [hfind]
      constructor
      · rintro ⟨m', hm', rfl⟩
        rw [Option.some.inj hm']
      · rintro rfl
        exact ⟨m, rfl, rfl⟩

/-- A scan judges every function of a text by its length and by its nesting, and makes no other
finding of these rules. -/
theorem functions_of_scan (document : DocumentId) (content : String)
    (hgo : languageOf document.name = "go") :
    (∀ s name, OpensFunction (strippedLines content) s name →
      0 < depthAtEnd (strippedLines content) s ∧
        Judges (strippedLines content) (scan document content) s name) ∧
    ∀ f ∈ scan document content,
      (Rule.longFunction.isSource f = true →
        ∃ name, OpensFunction (strippedLines content) (startLine f) name) ∧
      (Rule.deepNesting.isSource f = true →
        ∃ s name, OpensFunction (strippedLines content) s name ∧ s ≤ startLine f ∧
          startLine f ≤ functionEnd (strippedLines content) s) := by
  refine ⟨fun s name hs => ⟨hs.depthAtEnd_pos, judges_scan hgo hs⟩,
    fun f hf => ⟨fun hr => ?_, fun hr => ?_⟩⟩
  · obtain ⟨m, -, s, name, hopen, -, -, rfl⟩ := mem_told_longFunction_iff.mp
      ((mem_scan_and_isSource_iff hgo _).mp ⟨hf, hr⟩)
    exact ⟨name, hopen.opens⟩
  · obtain ⟨m, hm, s, name, hopen, -, -, rfl⟩ := mem_told_deepNesting_iff.mp
      ((mem_scan_and_isSource_iff hgo _).mp ⟨hf, hr⟩)
    exact ⟨s, name, hopen.opens, (functionOpen_iff hopen.opens hm).mp hopen⟩

/-- A function with 64 lines in its body, and five open braces on the fourth of them. -/
def deepAndLong : List Char :=
  "package main\n\nfunc f() \x7b\n\tif a \x7b\n\tfor \x7b\n\tif b \x7b\n\tif c \x7b\n".toList ++
    (List.replicate 58 "\tx()\n".toList).flatten ++ "\t\x7d\n\x7d\x7d\x7d\n\x7d\n".toList

theorem functions_of_scan_deepAndLong :
    languageOf "main.go" = "go" ∧
      OpensFunction (strippedLines (String.ofList deepAndLong)) 2 "f" ∧
      Judges (strippedLines (String.ofList deepAndLong))
        (scan ⟨"main.go"⟩ (String.ofList deepAndLong)) 2 "f" ∧
      (Rule.longFunction.at_ 2 (longMessage "f" 64) ∈
          scan ⟨"main.go"⟩ (String.ofList deepAndLong) ∧
        ∃ name, OpensFunction (strippedLines (String.ofList deepAndLong)) 2 name) ∧
      (Rule.deepNesting.at_ 6 ∈ scan ⟨"main.go"⟩ (String.ofList deepAndLong) ∧
        ∃ s name, OpensFunction (strippedLines (String.ofList deepAndLong)) s name ∧ s ≤ 6 ∧
          6 ≤ functionEnd (strippedLines (String.ofList deepAndLong)) s) := by
  have hgo : languageOf "main.go" = "go" := by decide +kernel
  have hs : OpensFunction (strippedLines (String.ofList deepAndLong)) 2 "f" := by
    rw [strippedLines_ofList]
    decide +kernel
  have hfound : Rule.longFunction.at_ 2 (longMessage "f" 64) ∈
        (scanLines .start 0 (strippedLines (String.ofList deepAndLong))).findings ∧
      Rule.deepNesting.at_ 6 ∈
        (scanLines .start 0 (strippedLines (String.ofList deepAndLong))).findings := by
    rw [strippedLines_ofList]
    decide +kernel
  have hlong := (mem_scan_iff_scanLines ⟨"main.go"⟩ _).mpr ⟨hgo, hfound.1⟩
  have hdeep := (mem_scan_iff_scanLines ⟨"main.go"⟩ _).mpr ⟨hgo, hfound.2⟩
  obtain ⟨hjudges, hother⟩ := functions_of_scan ⟨"main.go"⟩ (String.ofList deepAndLong) hgo
  exact ⟨hgo, hs, (hjudges 2 "f" hs).2, ⟨hlong, (hother _ hlong).1 (by simp)⟩,
    ⟨hdeep, (hother _ hdeep).2 (by simp)⟩⟩

end SmellWatch.Heuristics
