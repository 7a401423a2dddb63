import Mathlib.Data.String.Basic
import SmellWatch.Config.Json
/-! What is found in an object that was laid over another.

A key is found in what is laid over if it stands there, and else below (`find?_mergeFields`).  Keys
stay in order, each of them once, and so the parts of a record are what is found under the names of
its fields (`objectParts?_ofFields`). -/

namespace SmellWatch

namespace Json

variable {fields overlay : Fields} {key k : String} {v : Json}

/-! ## Keys in order -/

/-- The keys are in order, each of them once. -/
def Sorted (fields : Fields) : Prop := fields.Pairwise fun a b => a.1 < b.1

theorem Sorted.nodup (h : Sorted fields) : (fields.map (·.1)).Nodup :=
  List.pairwise_map.mpr (h.imp fun hlt => hlt.ne)

theorem mem_insert {x : String × Json} (h : x ∈ insert k v fields) : x = (k, v) ∨ x ∈ fields := by
  induction fields with
  | nil => exact .inl (List.mem_singleton.mp h)
  | cons f r ih =>
    unfold insert at h
    split at h
    · exact (List.mem_cons.mp h).imp_right (List.mem_cons_of_mem _)
    · split at h
      · exact List.mem_cons.mp h
      · rcases List.mem_cons.mp h with rfl | h
        · exact .inr List.mem_cons_self
        · exact (ih h).imp_right (List.mem_cons_of_mem _)

theorem Sorted.insert (h : Sorted fields) (k : String) (v : Json) :
    Sorted (insert k v fields) := by
  induction fields with
  | nil => exact List.pairwise_singleton _ _
  | cons f r ih =>
    obtain ⟨hfirst, hrest⟩ := List.pairwise_cons.mp h
    unfold Json.insert
    split
    · rename_i hk
      exact List.pairwise_cons.mpr ⟨fun x hx => hk ▸ hfirst x hx, hrest⟩
    · split
      · rename_i hlt
        refine List.pairwise_cons.mpr ⟨fun x hx => ?_, h⟩
        rcases List.mem_cons.mp hx with rfl | hx
        · exact hlt
        · exact lt_trans hlt (hfirst x hx)
      · rename_i hne hnot
        refine List.pairwise_cons.mpr ⟨fun x hx => ?_, ih hrest⟩
        rcases mem_insert hx with rfl | hx
        · exact lt_of_le_of_ne (not_lt.mp hnot) fun heq => hne heq.symm
        · exact hfirst x hx

theorem Sorted.foldl_insert (h : Sorted overlay) (fields : Fields) :
    Sorted (fields.foldl (fun acc kv => Json.insert kv.1 kv.2 acc) overlay) := by
  induction fields generalizing overlay with
  | nil => exact h
  | cons kv r ih => exact ih (h.insert kv.1 kv.2)

theorem Sorted.mergeFields (h : Sorted fields) (overlay : Fields) :
    Sorted (mergeFields fields overlay) := by
  induction overlay generalizing fields with
  | nil =>
    unfold Json.mergeFields
    exact h
  | cons kv r ih =>
    unfold Json.mergeFields
    exact ih (h.insert _ _)

/-! ## What is found -/

theorem find?_append (key : String) (fields rest : Fields) :
    find? key (fields ++ rest) = (find? key fields).or (find? key rest) := by
  induction fields with
  | nil => rfl
  | cons f r ih =>
    simp only [List.cons_append, find?]
    split
    · rfl
    · exact ih

/-- Of equal keys the last one counts. -/
theorem find?_foldl_insert (key : String) (fields acc : Fields) :
    find? key (fields.foldl (fun acc kv => insert kv.1 kv.2 acc) acc) =
      (find? key fields.reverse).or (find? key acc) := by
  induction fields generalizing acc with
  | nil => rfl
  | cons f r ih =>
    rw [List.foldl_cons, ih, List.reverse_cons, find?_append, Option.or_assoc]
    congr 1
    by_cases hkey : key = f.1
    · subst hkey
      rw [find?_insert_self]
      simp [find?]
    · rw [find?_insert_of_ne hkey]
      simp [find?, hkey]

theorem find?_eq_none_of_not_mem (h : key ∉ fields.map (·.1)) : find? key fields = none := by
  induction fields with
  | nil => rfl
  | cons f r ih =>
    rw [List.map_cons, List.mem_cons, not_or] at h
    rw [find?, if_neg h.1]
    exact ih h.2

/-- A key is found in what is laid over if it stands there, and else below. -/
theorem find?_mergeFields (h : (overlay.map (·.1)).Nodup) (key : String) (fields : Fields) :
    find? key (mergeFields fields overlay) = match find? key overlay, find? key fields with
      | none, below => below
      | some v, some old => some (merge old v)
      | some v, none => some v := by
  induction overlay generalizing fields with
  | nil =>
    unfold mergeFields
    rfl
  | cons kv r ih =>
    obtain ⟨k, v⟩ := kv
    rw [List.map_cons, List.nodup_cons] at h
    unfold mergeFields
    dsimp only
    rw [ih h.2, find?]
    by_cases hkey : key = k
    · subst hkey
      rw [find?_eq_none_of_not_mem h.1, if_pos rfl, find?_insert_self]
      cases find? key fields <;> rfl
    · rw [if_neg hkey, find?_insert_of_ne hkey]

theorem isObject_ofOption (text : Option String) : (ofOption .string text).isObject = false := by
  cases text <;> rfl

theorem isObject_ofSingle (x : Decimal.Single) : (ofSingle x).isObject = false := by
  unfold ofSingle
  split <;> rfl

theorem isObject_ofDouble (x : Decimal.Double) : (ofDouble x).isObject = false := by
  unfold ofDouble
  split <;> rfl

theorem merge_of_not_object {base : Json} (h : base.isObject = false) (v : Json) :
    merge base v = v := by
  cases v with
  | object overlay =>
    cases base with
    | object fields => cases h
    | _ => unfold merge; rfl
  | _ => unfold merge; rfl

end Json

/-! ## Parts of records -/

namespace JsonSource

variable {fields : Json.Fields}

theorem valuesOf_ofFields (h : (fields.map (·.1)).Nodup) (name : String) :
    valuesOf name (ofFields fields) = ((Json.find? name fields).map ofValue).toList := by
  induction fields with
  | nil =>
    unfold ofFields
    rfl
  | cons f r ih =>
    obtain ⟨k, v⟩ := f
    rw [List.map_cons, List.nodup_cons] at h
    have hrest := ih h.2
    unfold valuesOf at hrest ⊢
    unfold ofFields
    rw [List.filter_cons, Json.find?]
    by_cases hname : name = k
    · subst hname
      rw [Json.find?_eq_none_of_not_mem h.1] at hrest
      simpa using hrest
    · simpa [hname, Ne.symm hname] using hrest

/-- The parts of a record that has every field that may not be missing. -/
theorem objectParts?_of_found (h : (fields.map (·.1)).Nodup) {known : List RecordField}
    (hknown : ∀ f ∈ known, f.optional = true ∨ (Json.find? f.name fields).isSome = true) :
    objectParts? known (ofFields fields) =
      some (known.map fun f => (Json.find? f.name fields).map ofValue) := by
  have hkeys : (ofFields fields).any (fun kv => kv.1.isNone) = false := by
    clear hknown
    induction fields with
    | nil =>
      unfold ofFields
      rfl
    | cons f r ih =>
      rw [List.map_cons, List.nodup_cons] at h
      unfold ofFields
      simpa using ih h.2
  unfold objectParts?
  rw [hkeys, if_neg Bool.false_ne_true]
  induction known with
  | nil => rfl
  | cons f r ih =>
    rw [List.mapM_cons, ih fun g hg => hknown g (List.mem_cons_of_mem _ hg),
      valuesOf_ofFields h, List.map_cons]
    have hf := hknown f List.mem_cons_self
    cases hfound : Json.find? f.name fields with
    | some v => rfl
    | none =>
      rw [hfound] at hf
      rw [hf.resolve_right Bool.false_ne_true]
      rfl

/-- The parts of a record of which every field may be missing. -/
theorem objectParts?_ofFields (h : (fields.map (·.1)).Nodup) {known : List RecordField}
    (hknown : ∀ f ∈ known, f.optional = true) :
    objectParts? known (ofFields fields) =
      some (known.map fun f => (Json.find? f.name fields).map ofValue) :=
  objectParts?_of_found h fun f hf => .inl (hknown f hf)

end JsonSource

end SmellWatch
