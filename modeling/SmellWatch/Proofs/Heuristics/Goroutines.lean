import SmellWatch.Proofs.Heuristics.Ids
/-! What is found about goroutines: loops that nothing ends.

A goroutine is open from the line that starts it up to the first line, itself included, that ends at
a depth not greater than before it (`GoroutineOpen`). Goroutines may be nested, and a line belongs
to the innermost of those that are open on it (`Owns`). Those that are open were started deeper and
deeper (`depthBefore_lt`), so the scanner, which looks at the first of its list only, closes exactly
those that a line closes (`closeGoroutines_of_sorted`). Its list is that of the goroutines that are
open, each with what its own lines have told (`goroutines_stateBefore`).

So a goroutine is reported when it is closed, and exactly if it loops forever by its own lines
(`goroutines_of_scan`). -/

namespace SmellWatch.Heuristics

open GoSource

variable {n i i' k l depth : Nat} {codes : List (List Char)} {gs : List Goroutine} {x : Finding}

/-! ## Goroutines of a text -/

/-- The goroutine that line `i` starts is open on line `n`. -/
structure GoroutineOpen (codes : List (List Char)) (i n : Nat) : Prop where
  starts : Text.startsWith "go func" (lineAt codes i) = true
  le : i ≤ n
  deep : ∀ k, k < n → i ≤ k → depthBefore codes i < depthAtEnd codes k

instance (codes : List (List Char)) (i n : Nat) : Decidable (GoroutineOpen codes i n) :=
  decidable_of_iff (Text.startsWith "go func" (lineAt codes i) = true ∧ i ≤ n ∧
      ∀ k, k < n → i ≤ k → depthBefore codes i < depthAtEnd codes k)
    ⟨fun h => ⟨h.1, h.2.1, h.2.2⟩, fun h => ⟨h.starts, h.le, h.deep⟩⟩

/-- Line `n` belongs to the goroutine, the innermost one that is open on it. -/
def Owns (codes : List (List Char)) (i n : Nat) : Prop :=
  GoroutineOpen codes i n ∧ ∀ i', i' < n + 1 → GoroutineOpen codes i' n → i' ≤ i

instance (codes : List (List Char)) (i n : Nat) : Decidable (Owns codes i n) :=
  inferInstanceAs (Decidable (_ ∧ _))

/-- The goroutine ends, and by its own lines it has a loop on line `l` and no way out of it. -/
structure LoopsForever (codes : List (List Char)) (i l : Nat) : Prop where
  closes : ∃ j, j < codes.length ∧ GoroutineOpen codes i j ∧
    depthAtEnd codes j ≤ depthBefore codes i
  owns : Owns codes i l
  loop : lineAt codes l = "for \x7b".toList
  first : ∀ k, k < l → Owns codes i k → lineAt codes k ≠ "for \x7b".toList
  noExit : ∀ k, Owns codes i k → isExit (lineAt codes k) = false

theorem goroutineOpen_self :
    GoroutineOpen codes n n ↔ Text.startsWith "go func" (lineAt codes n) = true :=
  ⟨fun h => h.starts, fun h => ⟨h, Nat.le_refl n, fun k hk hnk => by omega⟩⟩

theorem goroutineOpen_succ (hi : i ≤ n) :
    GoroutineOpen codes i (n + 1) ↔
      GoroutineOpen codes i n ∧ depthBefore codes i < depthAtEnd codes n := by
  constructor
  · intro h
    exact ⟨⟨h.starts, hi, fun k hk hik => h.deep k (by omega) hik⟩, h.deep n (by omega) hi⟩
  · rintro ⟨h, hdeep⟩
    refine ⟨h.starts, by omega, fun k hk hik => ?_⟩
    rcases Nat.lt_succ_iff_lt_or_eq.mp hk with hlt | rfl
    · exact h.deep k hlt hik
    · exact hdeep

/-- Of two goroutines that are open, the one that was started later was started deeper. -/
theorem depthBefore_lt (h : GoroutineOpen codes i n) (hi' : i' ≤ n) (hlt : i < i') :
    depthBefore codes i < depthBefore codes i' := by
  have hdeep := h.deep (i' - 1) (by omega) (by omega)
  unfold depthAtEnd at hdeep
  rwa [Nat.sub_add_cancel (by omega)] at hdeep

theorem Owns.unique (h : Owns codes i n) (h' : Owns codes i' n) : i = i' :=
  Nat.le_antisymm (h'.2 i (Nat.lt_succ_of_le h.1.le) h.1)
    (h.2 i' (Nat.lt_succ_of_le h'.1.le) h'.1)

/-- What a goroutine owns comes before its end. -/
theorem Owns.le_of_closed (h : Owns codes i k) (hopen : GoroutineOpen codes i n)
    (hclosed : depthAtEnd codes n ≤ depthBefore codes i) : k ≤ n := by
  by_contra hgt
  have hdeep := h.1.deep n (by omega) hopen.le
  omega

/-! ## Closing -/

/-- Innermost first, and the inner ones deeper. -/
def Sorted (gs : List Goroutine) : Prop := gs.Pairwise fun g g' => g'.depth < g.depth

/-- What is left open by a line that ends at a depth. -/
theorem closeGoroutines_of_sorted (h : Sorted gs) :
    (closeGoroutines depth gs).2 = gs.filter (·.depth < depth) := by
  induction gs with
  | nil => rfl
  | cons g rest ih =>
    obtain ⟨hhead, htail⟩ := List.pairwise_cons.mp h
    unfold closeGoroutines
    by_cases hopen : g.depth < depth
    · rw [if_pos hopen]
      refine (List.filter_eq_self.mpr fun g' hg' => decide_eq_true ?_).symm
      rcases List.mem_cons.mp hg' with rfl | hg'
      · exact hopen
      · have := hhead g' hg'
        omega
    · have hclosed : (g :: rest).filter (·.depth < depth) = rest.filter (·.depth < depth) := by
        simp [hopen]
      rw [if_neg hopen, hclosed, ← ih htail]
      dsimp only
      split <;> rfl

/-- What is found about the goroutines that a line closes. -/
theorem mem_closeGoroutines_iff (h : Sorted gs) :
    x ∈ (closeGoroutines depth gs).1 ↔ ∃ g ∈ gs, depth ≤ g.depth ∧ g.hasExit = false ∧
      ∃ l, g.loopLine = some l ∧ x = Rule.endlessGoroutine.at_ l := by
  induction gs with
  | nil => simp [closeGoroutines]
  | cons g rest ih =>
    obtain ⟨hhead, htail⟩ := List.pairwise_cons.mp h
    unfold closeGoroutines
    by_cases hopen : g.depth < depth
    · rw [if_pos hopen]
      refine iff_of_false List.not_mem_nil ?_
      rintro ⟨g', hg', hclosed, -⟩
      rcases List.mem_cons.mp hg' with rfl | hg'
      · omega
      · have := hhead g' hg'
        omega
    · have hclosed : depth ≤ g.depth := by omega
      simp only [if_neg hopen, List.mem_cons, exists_eq_or_imp, hclosed, true_and, ← ih htail]
      cases hloop : g.loopLine with
      | none => simp
      | some l => cases hexit : g.hasExit <;> simp

/-! ## The goroutines that the scanner keeps -/

/-- What the lines before line `n` tell of the goroutine. -/
def record (codes : List (List Char)) (n i : Nat) : Goroutine where
  depth := depthBefore codes i
  loopLine := (List.range n).find? fun k =>
    decide (Owns codes i k ∧ lineAt codes k = "for \x7b".toList)
  hasExit := (List.range n).any fun k => decide (Owns codes i k) && isExit (lineAt codes k)

/-- The lines before line `m` that start a goroutine that is open on line `n`, the last first. -/
def openOf (codes : List (List Char)) (m n : Nat) : List Nat :=
  (List.range m).reverse.filter fun i => GoroutineOpen codes i n

theorem mem_openOf_iff {m : Nat} : i ∈ openOf codes m n ↔ i < m ∧ GoroutineOpen codes i n := by
  unfold openOf
  rw [List.mem_filter, List.mem_reverse, List.mem_range, decide_eq_true_iff]

theorem pairwise_openOf (codes : List (List Char)) (m n : Nat) :
    (openOf codes m n).Pairwise fun i i' => i' < i :=
  (List.pairwise_reverse.mpr List.pairwise_lt_range).filter _

/-- A line that starts a goroutine puts it first. -/
theorem openOf_succ (codes : List (List Char)) (n : Nat) :
    openOf codes (n + 1) n = if Text.startsWith "go func" (lineAt codes n) then
      n :: openOf codes n n else openOf codes n n := by
  unfold openOf
  rw [List.range_succ, List.reverse_append, List.reverse_singleton, List.singleton_append,
    List.filter_cons]
  simp only [goroutineOpen_self, decide_eq_true_eq]

/-- A line that closes goroutines leaves the others open. -/
theorem openOf_next (codes : List (List Char)) (n : Nat) :
    openOf codes (n + 1) (n + 1) =
      (openOf codes (n + 1) n).filter fun i => depthBefore codes i < depthAtEnd codes n := by
  unfold openOf
  rw [List.filter_filter]
  refine List.filter_congr fun i hi => ?_
  rw [List.mem_reverse, List.mem_range] at hi
  rw [← Bool.decide_and, decide_eq_decide, goroutineOpen_succ (by omega), and_comm]

theorem record_self (codes : List (List Char)) (n : Nat) :
    record codes n n = ⟨depthBefore codes n, none, false⟩ := by
  have hnone : ∀ k, k < n → ¬ Owns codes n k := fun k hk h => by
    have := h.1.le
    omega
  unfold record
  congr 1
  · refine List.find?_range_eq_none.mpr fun k hk => ?_
    simp [hnone k hk]
  · refine List.any_eq_false.mpr fun k hk => ?_
    simp [hnone k (List.mem_range.mp hk)]

/-- The goroutine that a line belongs to is told of it. -/
theorem record_succ_of_owns (h : Owns codes i n) :
    record codes (n + 1) i = (record codes n i).see n (lineAt codes n) := by
  unfold record Goroutine.see
  generalize "for \x7b".toList = head
  congr 1
  · rw [List.range_succ, List.find?_append]
    cases (List.range n).find? fun k => decide (Owns codes i k ∧ lineAt codes k = head) with
    | some k => simp
    | none => by_cases hfor : lineAt codes n = head <;> simp [h, hfor]
  · rw [List.range_succ, List.any_append]
    simp [h]

theorem record_succ_of_not_owns (h : ¬ Owns codes i n) :
    record codes (n + 1) i = record codes n i := by
  unfold record
  generalize "for \x7b".toList = head
  congr 1
  · rw [List.range_succ, List.find?_append]
    simp [h]
  · rw [List.range_succ, List.any_append]
    simp [h]

/-- The goroutines that are open on a line, with what the line tells the innermost one. -/
theorem modifyHead_openOf (codes : List (List Char)) (n : Nat) :
    ((openOf codes (n + 1) n).map (record codes n)).modifyHead
        (Goroutine.see n (lineAt codes n)) =
      (openOf codes (n + 1) n).map (record codes (n + 1)) := by
  have hpairwise := pairwise_openOf codes (n + 1) n
  cases hopen : openOf codes (n + 1) n with
  | nil => rfl
  | cons i rest =>
    rw [hopen, List.pairwise_cons] at hpairwise
    have hmem : ∀ j, j ∈ i :: rest ↔ j < n + 1 ∧ GoroutineOpen codes j n := fun j => by
      rw [← hopen, mem_openOf_iff]
    have howns : Owns codes i n := by
      refine ⟨((hmem i).mp List.mem_cons_self).2, fun j hj hjn => ?_⟩
      rcases List.mem_cons.mp ((hmem j).mpr ⟨hj, hjn⟩) with rfl | hrest
      · exact Nat.le_refl _
      · exact Nat.le_of_lt (hpairwise.1 j hrest)
    rw [List.map_cons, List.modifyHead_cons, List.map_cons, record_succ_of_owns howns]
    refine congrArg (_ :: ·) (List.map_congr_left fun j hj => ?_)
    refine (record_succ_of_not_owns fun hj' => ?_).symm
    have := hpairwise.1 j hj
    rw [howns.unique hj'] at this
    omega

theorem sorted_map_record (codes : List (List Char)) (m n : Nat) :
    Sorted ((openOf codes (n + 1) n).map (record codes m)) := by
  refine List.pairwise_map.mpr ((pairwise_openOf codes (n + 1) n).imp_of_mem ?_)
  intro i i' hi hi' hlt
  have hle := (mem_openOf_iff.mp hi).1
  exact depthBefore_lt (mem_openOf_iff.mp hi').2 (by omega) hlt

/-- The goroutines that the scanner has on a line of the text. -/
theorem goroutinesOn_of_stateBefore
    (h : (stateBefore codes n).goroutines = (openOf codes n n).map (record codes n)) :
    goroutinesOn (stateBefore codes n) n (codes.getD n []) =
      (openOf codes (n + 1) n).map (record codes (n + 1)) := by
  rw [← modifyHead_openOf, openOf_succ]
  unfold goroutinesOn
  rw [depth_stateBefore, h]
  refine congrArg (List.modifyHead _) ?_
  show (if Text.startsWith "go func" (lineAt codes n) then _ else _) = _
  by_cases hstarts : Text.startsWith "go func" (lineAt codes n) = true
  · rw [if_pos hstarts, if_pos hstarts, List.map_cons, record_self]
  · rw [if_neg hstarts, if_neg hstarts]

/-- Before each line the scanner has the goroutines that are open, and knows what belongs to
them. -/
theorem goroutines_stateBefore (codes : List (List Char)) (n : Nat) :
    (stateBefore codes n).goroutines = (openOf codes n n).map (record codes n) := by
  induction n with
  | zero => rfl
  | succ n ih =>
    rw [stateBefore, scanLine_eq, depth_stateBefore, ← depthAtEnd_eq]
    show (closeGoroutines (depthAtEnd codes n) (goroutinesOn _ _ _)).2 = _
    rw [goroutinesOn_of_stateBefore ih, closeGoroutines_of_sorted (sorted_map_record codes _ n),
      openOf_next, List.filter_map]
    rfl

/-! ## What is found -/

/-- A goroutine is told of when it is closed. -/
theorem mem_told_endlessGoroutine_iff :
    x ∈ told .endlessGoroutine (stateBefore codes n) ↔ ∃ m < n, ∃ i,
      (GoroutineOpen codes i m ∧ depthAtEnd codes m ≤ depthBefore codes i) ∧
        (record codes (m + 1) i).hasExit = false ∧
          ∃ l, (record codes (m + 1) i).loopLine = some l ∧
            x = Rule.endlessGoroutine.at_ l := by
  have hnew : ∀ m, told .endlessGoroutine (stateBefore codes (m + 1)) =
      told .endlessGoroutine (stateBefore codes m) ++ (closeGoroutines (depthAtEnd codes m)
        ((openOf codes (m + 1) m).map (record codes (m + 1)))).1 := by
    intro m
    rw [stateBefore, told_endlessGoroutine_scanLine, depth_stateBefore, ← depthAtEnd_eq,
      goroutinesOn_of_stateBefore (goroutines_stateBefore codes m)]
  rw [mem_told_iff hnew]
  refine exists_congr fun m => and_congr_right fun _ => ?_
  rw [mem_closeGoroutines_iff (sorted_map_record codes _ m)]
  constructor
  · rintro ⟨g, hg, hclosed, hexit, hloop⟩
    obtain ⟨i, hi, rfl⟩ := List.mem_map.mp hg
    exact ⟨i, ⟨(mem_openOf_iff.mp hi).2, hclosed⟩, hexit, hloop⟩
  · rintro ⟨i, ⟨hopen, hclosed⟩, hexit, hloop⟩
    have hi : i ∈ openOf codes (m + 1) m :=
      mem_openOf_iff.mpr ⟨Nat.lt_succ_of_le hopen.le, hopen⟩
    exact ⟨_, List.mem_map_of_mem hi, hclosed, hexit, hloop⟩

/-- What is known of a goroutine at its end is what its lines tell. -/
theorem loopsForever_iff {m : Nat} (hm : m < codes.length) (hopen : GoroutineOpen codes i m)
    (hclosed : depthAtEnd codes m ≤ depthBefore codes i) :
    LoopsForever codes i l ↔ (record codes (m + 1) i).hasExit = false ∧
      (record codes (m + 1) i).loopLine = some l := by
  have hexit : (record codes (m + 1) i).hasExit = false ↔
      ∀ k, Owns codes i k → isExit (lineAt codes k) = false := by
    unfold record
    rw [List.any_eq_false]
    constructor
    · intro h k hk
      have hkm := hk.le_of_closed hopen hclosed
      simpa [hk] using h k (List.mem_range.mpr (by omega))
    · intro h k _
      by_cases hk : Owns codes i k
      · simp [h k hk]
      · simp [hk]
  have hloop : (record codes (m + 1) i).loopLine = some l ↔
      (Owns codes i l ∧ lineAt codes l = "for \x7b".toList) ∧
        ∀ k, k < l → Owns codes i k → lineAt codes k ≠ "for \x7b".toList := by
    unfold record
    rw [List.find?_range_eq_some, decide_eq_true_iff]
    refine and_congr_right fun howns => ?_
    have hlm := howns.1.le_of_closed hopen hclosed
    rw [and_iff_right (List.mem_range.mpr (by omega))]
    refine forall_congr' fun k => imp_congr_right fun _ => ?_
    rw [Bool.not_eq_true', decide_eq_false_iff_not, not_and]
  rw [hexit, hloop]
  constructor
  · intro h
    exact ⟨h.noExit, ⟨h.owns, h.loop⟩, h.first⟩
  · rintro ⟨hnoExit, ⟨howns, hfor⟩, hfirst⟩
    exact ⟨⟨m, hm, hopen, hclosed⟩, howns, hfor, hfirst, hnoExit⟩

theorem mem_told_endlessGoroutine_at :
    x ∈ told .endlessGoroutine (stateBefore codes codes.length) ↔
      ∃ i l, LoopsForever codes i l ∧ x = Rule.endlessGoroutine.at_ l := by
  rw [mem_told_endlessGoroutine_iff]
  constructor
  · rintro ⟨m, hm, i, ⟨hopen, hclosed⟩, hexit, l, hloop, rfl⟩
    exact ⟨i, l, (loopsForever_iff hm hopen hclosed).mpr ⟨hexit, hloop⟩, rfl⟩
  · rintro ⟨i, l, h, rfl⟩
    obtain ⟨m, hm, hopen, hclosed⟩ := h.closes
    obtain ⟨hexit, hloop⟩ := (loopsForever_iff hm hopen hclosed).mp h
    exact ⟨m, hm, i, ⟨hopen, hclosed⟩, hexit, l, hloop, rfl⟩

/-- A scan has one finding for each goroutine that loops forever, on the line of its first loop, and
no other finding of the rule. -/
theorem goroutines_of_scan (document : DocumentId) (content : String)
    (hgo : languageOf document.name = "go") :
    (∀ i l, LoopsForever (strippedLines content) i l →
      (scan document content).count (Rule.endlessGoroutine.at_ l) = 1) ∧
    (∀ i i' l l', LoopsForever (strippedLines content) i l →
      LoopsForever (strippedLines content) i' l' → (i = i' ↔ l = l')) ∧
    ∀ f ∈ scan document content, Rule.endlessGoroutine.isSource f = true →
      ∃ i l, LoopsForever (strippedLines content) i l ∧ f = Rule.endlessGoroutine.at_ l := by
  refine ⟨fun i l h => ?_, fun i i' l l' h h' => ⟨?_, ?_⟩, fun f hf hr => ?_⟩
  · have htold := mem_told_endlessGoroutine_at.mpr ⟨i, l, h, rfl⟩
    have hmem := ((mem_scan_and_isSource_iff hgo _).mpr htold).1
    exact List.count_eq_one_of_mem (nodup_idsOf_scan document content).of_map hmem
  · rintro rfl
    rcases Nat.lt_trichotomy l l' with hlt | heq | hlt
    · exact absurd h.loop (h'.first l hlt h.owns)
    · exact heq
    · exact absurd h'.loop (h.first l' hlt h'.owns)
  · rintro rfl
    exact h.owns.unique h'.owns
  · exact mem_told_endlessGoroutine_at.mp ((mem_scan_and_isSource_iff hgo _).mp ⟨hf, hr⟩)

/-- A goroutine that loops forever, and in its loop another one whose loop returns. -/
def nestedLoops : List Char :=
  "func f() \x7b\n\tgo func() \x7b\n\t\tfor \x7b\n\t\t\tgo func() \x7b\n".toList ++
    "\t\t\t\tfor \x7b\n\t\t\t\t\treturn\n\t\t\t\t\x7d\n\t\t\t\x7d()\n".toList ++
    "\t\t\x7d\n\t\x7d()\n\x7d\n".toList

theorem goroutines_of_scan_nestedLoops :
    languageOf "main.go" = "go" ∧
      LoopsForever (strippedLines (String.ofList nestedLoops)) 1 2 ∧
      (scan ⟨"main.go"⟩ (String.ofList nestedLoops)).count (Rule.endlessGoroutine.at_ 2) = 1 ∧
      (1 = 1 ↔ 2 = 2) ∧
      (Rule.endlessGoroutine.at_ 2 ∈ scan ⟨"main.go"⟩ (String.ofList nestedLoops) ∧
        Rule.endlessGoroutine.isSource (Rule.endlessGoroutine.at_ 2) = true ∧
        ∃ i l, LoopsForever (strippedLines (String.ofList nestedLoops)) i l ∧
          Rule.endlessGoroutine.at_ 2 = Rule.endlessGoroutine.at_ l) := by
  have hgo : languageOf "main.go" = "go" := by decide +kernel
  have hlines : 9 < (strippedLines (String.ofList nestedLoops)).length ∧
      GoroutineOpen (strippedLines (String.ofList nestedLoops)) 1 9 ∧
      depthAtEnd (strippedLines (String.ofList nestedLoops)) 9 ≤
        depthBefore (strippedLines (String.ofList nestedLoops)) 1 ∧
      (record (strippedLines (String.ofList nestedLoops)) 10 1).hasExit = false ∧
      (record (strippedLines (String.ofList nestedLoops)) 10 1).loopLine = some 2 := by
    rw [strippedLines_ofList]
    decide +kernel
  obtain ⟨hlt, hopen, hclosed, hrecord⟩ := hlines
  have hloops := (loopsForever_iff hlt hopen hclosed).mpr hrecord
  obtain ⟨hone, hdistinct, hother⟩ :=
    goroutines_of_scan ⟨"main.go"⟩ (String.ofList nestedLoops) hgo
  have hmem := List.count_pos_iff.mp (Nat.lt_of_lt_of_eq Nat.one_pos (hone 1 2 hloops).symm)
  have hsource : Rule.endlessGoroutine.isSource (Rule.endlessGoroutine.at_ 2) = true := by simp
  exact ⟨hgo, hloops, hone 1 2 hloops, hdistinct 1 1 2 2 hloops hloops, hmem, hsource,
    hother _ hmem hsource⟩

end SmellWatch.Heuristics
