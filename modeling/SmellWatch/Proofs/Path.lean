import Mathlib.Data.List.DropRight
import SmellWatch.Path.Parts
/-! Paths that are shown alike.

A path is shown without the point in front of it, which leaves its way as it is
(`way_withoutPoint`) and takes one part away (`parts_of_hasPoint`).  So two paths that are not
the same and are shown alike are one path with a point in front of it and without
(`alike_of_parts_ne`).

The order of paths is a linear one (`comesBefore_total`, `comesBefore_trans`,
`comesBefore_antisymm`). -/

namespace SmellWatch

namespace Path

variable {p q : String} {ps qs : List Part} {cs : List Char}

/-! ## Pieces -/

theorem pieces_of_slash (cs : List Char) : pieces ('/' :: cs) = [] :: pieces cs := rfl

theorem pieces_of_ne {c : Char} (h : c ≠ '/') (cs : List Char) :
    ∃ first rest, pieces cs = first :: rest ∧ pieces (c :: cs) = (c :: first) :: rest := by
  induction cs generalizing c with
  | nil => exact ⟨[], [], rfl, if_neg h⟩
  | cons d ds ih =>
    have hcons : ∀ first rest, pieces (d :: ds) = first :: rest →
        pieces (c :: d :: ds) = (c :: first) :: rest := by
      intro first rest hpieces
      unfold pieces at hpieces ⊢
      rw [List.foldr_cons, if_neg h, hpieces]
    by_cases hd : d = '/'
    · subst hd
      exact ⟨[], pieces ds, rfl, hcons _ _ rfl⟩
    · obtain ⟨first, rest, -, hpieces⟩ := ih hd
      exact ⟨d :: first, rest, hpieces, hcons _ _ hpieces⟩

theorem pieces_ne_nil (cs : List Char) : pieces cs ≠ [] := by
  cases cs with
  | nil => exact List.cons_ne_nil _ _
  | cons c cs =>
    by_cases hc : c = '/'
    · subst hc
      exact List.cons_ne_nil _ _
    · obtain ⟨first, rest, -, h⟩ := pieces_of_ne hc cs
      rw [h]
      exact List.cons_ne_nil _ _

theorem slash_notMem_of_mem_pieces (cs : List Char) : ∀ x ∈ pieces cs, '/' ∉ x := by
  induction cs with
  | nil => simp [pieces]
  | cons c cs ih =>
    by_cases hc : c = '/'
    · subst hc
      rw [pieces_of_slash]
      exact List.forall_mem_cons.mpr ⟨List.not_mem_nil, ih⟩
    · obtain ⟨first, rest, htail, h⟩ := pieces_of_ne hc cs
      rw [htail] at ih
      obtain ⟨hfirst, hrest⟩ := List.forall_mem_cons.mp ih
      rw [h]
      refine List.forall_mem_cons.mpr ⟨?_, hrest⟩
      exact fun hin => (List.mem_cons.mp hin).elim (Ne.symm hc) hfirst

/-- What stands before the first slash is the first piece. -/
theorem pieces_append {x : List Char} (h : '/' ∉ x) (cs : List Char) :
    pieces (x ++ '/' :: cs) = x :: pieces cs := by
  induction x with
  | nil => rfl
  | cons c x ih =>
    obtain ⟨hc, hx⟩ := List.ne_and_not_mem_of_not_mem_cons h
    obtain ⟨first, rest, htail, hall⟩ := pieces_of_ne (Ne.symm hc) (x ++ '/' :: cs)
    rw [ih hx] at htail
    cases htail
    exact hall

theorem pieces_of_notMem {x : List Char} (h : '/' ∉ x) : pieces x = [x] := by
  induction x with
  | nil => rfl
  | cons c x ih =>
    obtain ⟨hc, hx⟩ := List.ne_and_not_mem_of_not_mem_cons h
    obtain ⟨first, rest, htail, hall⟩ := pieces_of_ne (Ne.symm hc) x
    rw [ih hx] at htail
    cases htail
    exact hall

/-- Pieces with slashes between them are the pieces. -/
theorem pieces_intercalate {l : List (List Char)} (hne : l ≠ []) (h : ∀ x ∈ l, '/' ∉ x) :
    pieces (['/'].intercalate l) = l := by
  induction l with
  | nil => exact absurd rfl hne
  | cons x l ih =>
    obtain ⟨hx, hl⟩ := List.forall_mem_cons.mp h
    cases l with
    | nil => rw [List.intercalate_singleton, pieces_of_notMem hx]
    | cons y l =>
      rw [List.intercalate_cons_cons, List.append_assoc, List.singleton_append, pieces_append hx,
        ih (List.cons_ne_nil _ _) hl]

theorem split_ne_nil (p : String) : split p ≠ [] := by
  unfold split
  exact fun h => pieces_ne_nil _ (List.map_eq_nil_iff.mp h)

theorem slash_notMem_of_mem_split {x : String} (h : x ∈ split p) : '/' ∉ x.toList := by
  obtain ⟨y, hy, rfl⟩ := List.mem_map.mp h
  rw [String.toList_ofList]
  exact slash_notMem_of_mem_pieces _ y hy

theorem split_intercalate {l : List String} (hne : l ≠ []) (h : ∀ x ∈ l, '/' ∉ x.toList) :
    split ("/".intercalate l) = l := by
  unfold split
  rw [String.toList_intercalate, show "/".toList = ['/'] from rfl, pieces_intercalate]
  · rw [List.map_map]
    exact List.map_id'' (fun x => String.ofList_toList) l
  · exact fun hnil => hne (List.map_eq_nil_iff.mp hnil)
  · intro y hy
    obtain ⟨x, hx, rfl⟩ := List.mem_map.mp hy
    exact h x hx

/-- A path from the root has nothing before its first slash. -/
theorem head?_split_of_isAbsolute (h : isAbsolute p = true) : (split p).head? = some "" := by
  unfold isAbsolute at h
  unfold split
  cases hp : p.toList with
  | nil => simp [hp] at h
  | cons c cs =>
    obtain rfl : c = '/' := by simpa [hp] using h
    rfl

/-! ## The point in front -/

/-- A piece that stays where it is. -/
def isSilent (piece : String) : Bool := piece == "" || piece == "."

/-- A path starts with a point. -/
def HasPoint (p : String) : Prop := (split p).head? = some "."

instance (p : String) : Decidable (HasPoint p) := inferInstanceAs (Decidable (_ = _))

/-- The way that a path goes: its pieces behind those in front that stay where they are. -/
def way (p : String) : List String := (split p).dropWhile isSilent

theorem not_isAbsolute_of_hasPoint (h : HasPoint p) : isAbsolute p = false := by
  by_contra habs
  have hhead := head?_split_of_isAbsolute (by simpa using habs)
  rw [show (split p).head? = _ from h] at hhead
  exact absurd hhead (by decide)

theorem ne_empty_of_hasPoint (h : HasPoint p) : p ≠ "" := by
  rintro rfl
  exact absurd h (by decide)

theorem partOf?_ne_current (piece : String) : partOf? piece ≠ some .current := by
  unfold partOf?
  split
  · exact nofun
  · split <;> exact nofun

theorem partOf?_of_isSilent {piece : String} (h : isSilent piece = true) :
    partOf? piece = none := by
  unfold isSilent at h
  unfold partOf?
  rw [if_pos (by simpa using h)]

/-- The first part of a path is the point exactly if it starts with one. -/
theorem head?_parts (p : String) : (parts p).head? = some .current ↔ HasPoint p := by
  have hrest : ∀ l : List String, (l.filterMap partOf?).head? ≠ some .current := by
    intro l h
    obtain ⟨x, -, hx⟩ := List.mem_filterMap.mp (List.mem_of_mem_head? h)
    exact partOf?_ne_current x hx
  unfold HasPoint parts
  rcases hsplit : split p with _ | ⟨first, rest⟩
  · exact absurd hsplit (split_ne_nil p)
  · rw [List.head?_cons, Option.some.injEq]
    dsimp only
    by_cases habs : isAbsolute p = true
    · have hempty := head?_split_of_isAbsolute habs
      rw [hsplit, List.head?_cons, Option.some.injEq] at hempty
      rw [if_pos habs, hempty]
      simp
    · rw [if_neg habs]
      by_cases hfirst : first = "."
      · rw [if_pos hfirst]
        simp [hfirst]
      · rw [if_neg hfirst]
        refine iff_of_false ?_ hfirst
        have hall := hrest (first :: rest)
        rwa [show (first :: rest).filterMap partOf? =
          (partOf? first).toList ++ rest.filterMap partOf? by
            cases h : partOf? first <;> simp [h]] at hall

theorem withoutPoint_of_hasPoint (h : HasPoint p) :
    withoutPoint p = "/".intercalate (way p) := if_pos ((head?_parts p).mpr h)

theorem withoutPoint_of_not_hasPoint (h : ¬ HasPoint p) : withoutPoint p = p :=
  if_neg (mt (head?_parts p).mp h)

/-- What is shown of a path that starts with a point is its way. -/
theorem split_withoutPoint (h : HasPoint p) :
    split (withoutPoint p) = if way p = [] then [""] else way p := by
  rw [withoutPoint_of_hasPoint h]
  split
  · rename_i hnil
    rw [hnil]
    rfl
  · rename_i hne
    refine split_intercalate hne fun x hx => slash_notMem_of_mem_split (p := p) ?_
    exact (List.dropWhile_sublist _).subset hx

/-- A way does not start with a piece that stays where it is. -/
theorem not_isSilent_of_head? {piece : String} (h : (way p).head? = some piece) :
    isSilent piece = false := by
  have hhead := List.head?_dropWhile_not isSilent (split p)
  rw [show ((split p).dropWhile isSilent).head? = some piece from h] at hhead
  exact hhead

/-- The way of a path is that of what is shown of it. -/
theorem way_withoutPoint (p : String) : way (withoutPoint p) = way p := by
  by_cases h : HasPoint p
  · show (split (withoutPoint p)).dropWhile isSilent = way p
    rw [split_withoutPoint h]
    split
    · rename_i hnil
      rw [hnil]
      rfl
    · exact List.dropWhile_idempotent _ _
  · rw [withoutPoint_of_not_hasPoint h]

/-- What is shown of a path that starts with a point starts with a name or goes back, unless it
is empty. -/
theorem head?_split_withoutPoint (h : HasPoint p) {piece : String}
    (hhead : (split (withoutPoint p)).head? = some piece) :
    isSilent piece = false ∨ withoutPoint p = "" := by
  rw [split_withoutPoint h] at hhead
  split at hhead
  · rename_i hnil
    right
    rw [withoutPoint_of_hasPoint h, hnil]
    rfl
  · exact .inl (not_isSilent_of_head? hhead)

theorem isAbsolute_withoutPoint (p : String) : isAbsolute (withoutPoint p) = isAbsolute p := by
  by_cases h : HasPoint p
  · rw [not_isAbsolute_of_hasPoint h]
    by_contra habs
    rw [Bool.not_eq_false] at habs
    rcases head?_split_withoutPoint h (head?_split_of_isAbsolute habs) with hnot | hempty
    · cases hnot
    · rw [hempty] at habs
      cases habs
  · rw [withoutPoint_of_not_hasPoint h]

theorem not_hasPoint_withoutPoint (p : String) : ¬ HasPoint (withoutPoint p) := by
  by_cases h : HasPoint p
  · intro hpoint
    rcases head?_split_withoutPoint h hpoint with hnot | hempty
    · cases hnot
    · rw [hempty] at hpoint
      exact absurd hpoint (by decide)
  · rwa [withoutPoint_of_not_hasPoint h]

/-! ## Parts of what is shown -/

theorem filterMap_way (p : String) : (way p).filterMap partOf? = (split p).filterMap partOf? := by
  unfold way
  induction split p with
  | nil => rfl
  | cons x l ih =>
    by_cases hx : isSilent x = true
    · rw [List.dropWhile_cons_of_pos hx, ih, List.filterMap_cons_none (partOf?_of_isSilent hx)]
    · rw [List.dropWhile_cons_of_neg hx]

/-- The parts of a path that starts neither with the root nor with a point. -/
theorem parts_of_plain (habs : isAbsolute p = false) (hpoint : ¬ HasPoint p) :
    parts p = (split p).filterMap partOf? := by
  unfold HasPoint at hpoint
  unfold parts
  rcases hsplit : split p with _ | ⟨first, rest⟩
  · exact absurd hsplit (split_ne_nil p)
  · rw [hsplit, List.head?_cons, Option.some.injEq] at hpoint
    dsimp only
    rw [habs, if_neg (by simp), if_neg hpoint]
    cases h : partOf? first <;> simp [h]

/-- A path that starts with a point has the parts of what is shown of it behind the point. -/
theorem parts_of_hasPoint (h : HasPoint p) : parts p = .current :: parts (withoutPoint p) := by
  have habs := not_isAbsolute_of_hasPoint h
  rw [parts_of_plain ((isAbsolute_withoutPoint p).trans habs) (not_hasPoint_withoutPoint p),
    ← filterMap_way, way_withoutPoint, filterMap_way]
  unfold HasPoint at h
  unfold parts
  rcases hsplit : split p with _ | ⟨first, rest⟩
  · exact absurd hsplit (split_ne_nil p)
  · rw [hsplit, List.head?_cons, Option.some.injEq] at h
    subst h
    dsimp only
    rw [habs, if_neg (by simp), if_pos rfl]
    rfl

/-- Of two paths that are not the same and are shown alike, one is shown as the other is. -/
theorem alike_of_parts_ne (hne : parts p ≠ parts q) (h : withoutPoint p = withoutPoint q) :
    (HasPoint p ∧ withoutPoint p = q) ∨ (HasPoint q ∧ withoutPoint q = p) := by
  by_cases hp : HasPoint p
  · by_cases hq : HasPoint q
    · rw [parts_of_hasPoint hp, parts_of_hasPoint hq, h] at hne
      exact absurd rfl hne
    · exact .inl ⟨hp, h.trans (withoutPoint_of_not_hasPoint hq)⟩
  · rw [withoutPoint_of_not_hasPoint hp] at h
    by_cases hq : HasPoint q
    · exact .inr ⟨hq, h.symm⟩
    · rw [withoutPoint_of_not_hasPoint hq] at h
      exact absurd (congrArg parts h) hne

/-! ## The order of paths -/

instance : Std.TransCmp Part.order :=
  inferInstanceAs (Std.TransCmp (compareLex (compareOn Part.rank) (compareOn Part.text)))

instance : Std.LawfulEqCmp Part.order where
  eq_of_compare {a b} h := by
    obtain ⟨hrank, htext⟩ := Ordering.then_eq_eq.mp h
    replace hrank := Std.LawfulEqOrd.eq_of_compare hrank
    replace htext := Std.LawfulEqOrd.eq_of_compare htext
    cases a <;> cases b <;> first | rfl | exact congrArg Part.name htext | cases hrank

/-- Paths are ordered as lists of their parts. -/
theorem comesBefore_eq (ps qs : List Part) :
    comesBefore ps qs = (List.compareLex Part.order ps qs).isLE := by
  induction ps generalizing qs with
  | nil => cases qs <;> rfl
  | cons a ps ih =>
    cases qs with
    | nil => rfl
    | cons b qs =>
      rw [List.compareLex_cons_cons]
      unfold comesBefore
      cases h : a.order b
      · rfl
      · exact ih qs
      · rfl

theorem comesBefore_total (ps qs : List Part) :
    (comesBefore ps qs || comesBefore qs ps) = true := by
  have hswap : List.compareLex Part.order ps qs = (List.compareLex Part.order qs ps).swap :=
    Std.OrientedCmp.eq_swap
  rw [comesBefore_eq, comesBefore_eq, hswap]
  cases List.compareLex Part.order qs ps <;> rfl

theorem comesBefore_trans {rs : List Part} (hpq : comesBefore ps qs = true)
    (hqr : comesBefore qs rs = true) : comesBefore ps rs = true := by
  rw [comesBefore_eq] at *
  exact Std.TransCmp.isLE_trans hpq hqr

theorem comesBefore_antisymm (hpq : comesBefore ps qs = true) (hqp : comesBefore qs ps = true) :
    ps = qs := by
  rw [comesBefore_eq] at *
  exact Std.LawfulEqCmp.eq_of_compare (Std.OrientedCmp.isLE_antisymm hpq hqp)

end Path

end SmellWatch
