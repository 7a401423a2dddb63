import SmellWatch.Proofs.Json.Merge
/-! What is at a path of keys in a value that was laid over another.

A key of what is merged is looked up in what is laid over and in what is below (`get?_merge`), and
a path is looked up key by key (`valueAt?_merge`).  Where the overlay has a value it is laid over
what is there, where it has a value on the way that is no object nothing is left, and everywhere
else it is as it was.  A value whose objects have their keys in order is known by what is seen of it
along its paths (`eq_of_face`).  So it follows from the law about paths, with no second induction
over two values, that the same overlay changes nothing when it is laid over again (`merge_merge`).

Keys are in order in all values that are read, in those of settings and in those that are merged
(`keysInOrder_of_parse?`, `Config.keysInOrder_toJson`, `KeysInOrder.merge`). -/

namespace SmellWatch

namespace Json

variable {fields overlay : Fields} {base v w : Json} {key : String} {path : List String}

/-! ## Values at paths -/

/-- The value at a path of keys. -/
def valueAt? : List String → Json → Option Json
  | [], v => some v
  | key :: path, v => (v.get? key).bind (valueAt? path)

/-- There is a value on the way of the path, before its end, that is no object. -/
def Blocks (v : Json) (path : List String) : Prop :=
  ∃ front w, front <+: path ∧ front ≠ path ∧ v.valueAt? front = some w ∧ w.isObject = false

/-- All objects at paths of the value have their keys in order, each of them once. -/
def KeysInOrder (v : Json) : Prop :=
  ∀ path fields, v.valueAt? path = some (.object fields) → Sorted fields

/-- What is seen of a value from outside: itself, or that it is an object. -/
def face : Json → Json
  | .object _ => .object []
  | v => v

theorem valueAt?_cons (key : String) (path : List String) (v : Json) :
    v.valueAt? (key :: path) = (v.get? key).bind (valueAt? path) := rfl

theorem get?_of_not_object (h : v.isObject = false) (key : String) : v.get? key = none := by
  cases v with
  | object fields => cases h
  | _ => rfl

theorem not_blocks_nil (v : Json) : ¬ Blocks v [] := by
  rintro ⟨front, w, hfront, hne, -⟩
  exact hne (List.prefix_nil.mp hfront)

/-- The way is blocked where it begins or behind its first key. -/
theorem blocks_cons_iff :
    Blocks v (key :: path) ↔ v.isObject = false ∨ ∃ w, v.get? key = some w ∧ Blocks w path := by
  constructor
  · rintro ⟨front, w, hfront, hne, hw, hobject⟩
    cases front with
    | nil =>
      obtain rfl : v = w := Option.some.inj hw
      exact .inl hobject
    | cons first front =>
      obtain ⟨rfl, hrest⟩ := List.cons_prefix_cons.mp hfront
      obtain ⟨u, hu, hw⟩ := Option.bind_eq_some_iff.mp hw
      exact .inr ⟨u, hu, front, w, hrest, fun heq => hne (congrArg (first :: ·) heq), hw, hobject⟩
  · rintro (hobject | ⟨u, hu, front, w, hfront, hne, hw, hobject⟩)
    · exact ⟨[], v, List.nil_prefix, (List.cons_ne_nil key path).symm, rfl, hobject⟩
    · refine ⟨key :: front, w, List.cons_prefix_cons.mpr ⟨rfl, hfront⟩, ?_, ?_, hobject⟩
      · exact fun heq => hne (List.cons.inj heq).2
      · rw [valueAt?_cons, hu]
        exact hw

instance decidableBlocks : (v : Json) → (path : List String) → Decidable (Blocks v path)
  | v, [] => .isFalse (not_blocks_nil v)
  | v, key :: path =>
    match hkey : v.get? key with
    | none => decidable_of_iff (v.isObject = false) (by simp [blocks_cons_iff, hkey])
    | some w =>
      have := decidableBlocks w path
      decidable_of_iff (v.isObject = false ∨ Blocks w path) (by simp [blocks_cons_iff, hkey])

theorem valueAt?_of_blocks (h : Blocks v path) : v.valueAt? path = none := by
  induction path generalizing v with
  | nil => exact absurd h (not_blocks_nil v)
  | cons key path ih =>
    rw [valueAt?_cons]
    rcases blocks_cons_iff.mp h with hobject | ⟨w, hw, hblocks⟩
    · rw [get?_of_not_object hobject]
      rfl
    · rw [hw]
      exact ih hblocks

/-! ## Keys in order -/

theorem KeysInOrder.sorted (h : KeysInOrder (.object fields)) : Sorted fields := h [] fields rfl

theorem KeysInOrder.of_get? (h : KeysInOrder v) (hw : v.get? key = some w) : KeysInOrder w := by
  intro path fields hfields
  refine h (key :: path) fields ?_
  rw [valueAt?_cons, hw]
  exact hfields

theorem KeysInOrder.of_valueAt? (h : KeysInOrder v) (hw : v.valueAt? path = some w) :
    KeysInOrder w := by
  induction path generalizing v with
  | nil =>
    obtain rfl : v = w := Option.some.inj hw
    exact h
  | cons key path ih =>
    obtain ⟨u, hu, hw⟩ := Option.bind_eq_some_iff.mp hw
    exact ih (h.of_get? hu) hw

theorem keysInOrder_of_not_object (h : v.isObject = false) : KeysInOrder v := by
  intro path fields hfields
  cases path with
  | nil =>
    obtain rfl : v = .object fields := Option.some.inj hfields
    cases h
  | cons key path =>
    rw [valueAt?_cons, get?_of_not_object h] at hfields
    cases hfields

theorem mem_of_find? (h : find? key fields = some v) : (key, v) ∈ fields := by
  induction fields with
  | nil => cases h
  | cons f r ih =>
    rw [find?] at h
    split at h
    · rename_i hkey
      cases h
      exact hkey ▸ List.mem_cons_self
    · exact List.mem_cons_of_mem _ (ih h)

theorem keysInOrder_object (hsorted : Sorted fields)
    (hfields : ∀ kv ∈ fields, KeysInOrder kv.2) : KeysInOrder (.object fields) := by
  intro path inner hinner
  cases path with
  | nil =>
    cases hinner
    exact hsorted
  | cons key path =>
    obtain ⟨w, hw, hinner⟩ := Option.bind_eq_some_iff.mp hinner
    exact hfields (key, w) (mem_of_find? hw) path inner hinner

theorem keysInOrder_ofFields (h : ∀ kv ∈ fields, KeysInOrder kv.2) :
    KeysInOrder (ofFields fields) := by
  refine keysInOrder_object (Sorted.foldl_insert List.Pairwise.nil fields) ?_
  -- what is inserted one by one comes from the list or was there
  suffices hall : ∀ acc : Fields, (∀ kv ∈ acc, KeysInOrder kv.2) →
      ∀ kv ∈ fields.foldl (fun acc kv => insert kv.1 kv.2 acc) acc, KeysInOrder kv.2 from
    hall [] nofun
  induction fields with
  | nil => exact fun acc hacc => hacc
  | cons f r ih =>
    intro acc hacc
    refine ih (fun kv hkv => h kv (List.mem_cons_of_mem _ hkv)) _ fun kv hkv => ?_
    rcases mem_insert hkv with rfl | hkv
    · exact h f List.mem_cons_self
    · exact hacc kv hkv

/-! ## Values by their faces -/

theorem Sorted.find?_of_lt {k : String} (h : Sorted ((k, v) :: fields)) (hlt : key < k) :
    find? key ((k, v) :: fields) = none := by
  refine find?_eq_none_of_not_mem fun hmem => ?_
  rcases List.mem_cons.mp hmem with rfl | hmem
  · exact lt_irrefl _ hlt
  · obtain ⟨f, hf, rfl⟩ := List.mem_map.mp hmem
    exact lt_asymm hlt ((List.pairwise_cons.mp h).1 f hf)

theorem Sorted.find?_tail {k : String} (h : Sorted ((k, v) :: fields)) (key : String) :
    find? key fields = if key = k then none else find? key ((k, v) :: fields) := by
  split
  · rename_i hkey
    exact find?_eq_none_of_not_mem (hkey ▸ (List.nodup_cons.mp h.nodup).1)
  · rename_i hkey
    rw [find?, if_neg hkey]

/-- Fields in order are known by what is found in them. -/
theorem Sorted.ext {other : Fields} (h : Sorted fields) (hother : Sorted other)
    (hsame : ∀ key, find? key fields = find? key other) : fields = other := by
  induction fields generalizing other with
  | nil =>
    cases other with
    | nil => rfl
    | cons g t =>
      have hfirst := hsame g.1
      rw [find?, find?, if_pos rfl] at hfirst
      cases hfirst
  | cons f r ih =>
    obtain ⟨k, v⟩ := f
    have hfirst := hsame k
    rw [find?, if_pos rfl] at hfirst
    cases other with
    | nil => cases hfirst
    | cons g t =>
      obtain ⟨l, w⟩ := g
      rcases lt_trichotomy k l with hlt | rfl | hlt
      · rw [hother.find?_of_lt hlt] at hfirst
        cases hfirst
      · obtain rfl : v = w := by simpa [find?] using hfirst
        refine congrArg ((k, v) :: ·) (ih (List.pairwise_cons.mp h).2
          (List.pairwise_cons.mp hother).2 fun key => ?_)
        rw [h.find?_tail, hother.find?_tail, hsame]
      · have hlast := hsame l
        rw [h.find?_of_lt hlt, find?, if_pos rfl] at hlast
        cases hlast

theorem sizeOf_lt_of_find? (h : find? key fields = some v) :
    sizeOf v < sizeOf (Json.object fields) := by
  have hmem := List.sizeOf_lt_of_mem (mem_of_find? h)
  simp only [Prod.mk.sizeOf_spec] at hmem
  simp only [Json.object.sizeOf_spec]
  omega

/-- Values that look alike at every path are the same. -/
theorem eq_of_face (hv : KeysInOrder v) (hw : KeysInOrder w)
    (h : ∀ path, (v.valueAt? path).map face = (w.valueAt? path).map face) : v = w := by
  induction hsize : sizeOf v using Nat.strong_induction_on generalizing v w with
  | _ n ih =>
    subst hsize
    have hface : face v = face w := Option.some.inj (h [])
    cases v with
    | object fields =>
      obtain ⟨other, rfl⟩ : ∃ other, w = .object other := by
        cases w with
        | object other => exact ⟨other, rfl⟩
        | _ => cases hface
      refine congrArg Json.object (hv.sorted.ext hw.sorted fun key => ?_)
      have hbelow : ∀ path, ((find? key fields).bind (valueAt? path)).map face =
          ((find? key other).bind (valueAt? path)).map face := fun path => h (key :: path)
      cases hx : find? key fields with
      | none =>
        cases hy : find? key other with
        | none => rfl
        | some y =>
          have hhere := hbelow []
          rw [hx, hy] at hhere
          cases hhere
      | some x =>
        cases hy : find? key other with
        | none =>
          have hhere := hbelow []
          rw [hx, hy] at hhere
          cases hhere
        | some y =>
          rw [hx, hy] at hbelow
          exact congrArg some
            (ih _ (sizeOf_lt_of_find? hx) (hv.of_get? hx) (hw.of_get? hy) hbelow rfl)
    | _ =>
      cases w with
      | object other => cases hface
      | _ => exact hface

/-! ## Merging -/

/-- A value laid over what is there, if anything is. -/
def laidOver : Option Json → Json → Json
  | some old, v => merge old v
  | none, v => v

theorem merge_of_overlay_not_object (h : v.isObject = false) (base : Json) : merge base v = v := by
  cases v with
  | object overlay => cases h
  | _ => unfold merge; rfl

theorem isObject_merge (base v : Json) : (merge base v).isObject = v.isObject := by
  cases v with
  | object overlay =>
    cases base with
    | object fields => rw [merge]; rfl
    | _ => rw [merge_of_not_object rfl]
  | _ => rw [merge_of_overlay_not_object rfl]

theorem isObject_laidOver (below : Option Json) (v : Json) :
    (laidOver below v).isObject = v.isObject := by
  cases below with
  | none => rfl
  | some old => exact isObject_merge old v

/-- What is found under a key of what is merged. -/
theorem get?_merge (h : KeysInOrder (.object overlay)) (base : Json) (key : String) :
    (merge base (.object overlay)).get? key = match find? key overlay with
      | some v => some (laidOver (base.get? key) v)
      | none => base.get? key := by
  by_cases hbase : base.isObject = true
  · cases base with
    | object fields =>
      rw [merge]
      show find? key (mergeFields fields overlay) = _
      rw [find?_mergeFields h.sorted.nodup]
      show _ = match find? key overlay with
        | some v => some (laidOver (find? key fields) v)
        | none => find? key fields
      cases find? key overlay with
      | none => rfl
      | some v => cases find? key fields <;> rfl
    | _ => cases hbase
  · rw [Bool.not_eq_true] at hbase
    rw [merge_of_not_object hbase, get?_of_not_object hbase]
    show find? key overlay = _
    cases find? key overlay <;> rfl

/-- What is at a path of what is merged: a value of the overlay laid over what is there, nothing
where the overlay blocks the way, and else what is there. -/
theorem valueAt?_merge (h : KeysInOrder w) (base : Json) (path : List String) :
    (merge base w).valueAt? path = match w.valueAt? path with
      | some v => some (laidOver (base.valueAt? path) v)
      | none => if Blocks w path then none else base.valueAt? path := by
  induction path generalizing base w with
  | nil => rfl
  | cons key path ih =>
    by_cases hobject : w.isObject = true
    · obtain ⟨overlay, rfl⟩ : ∃ overlay, w = .object overlay := by
        cases w with
        | object overlay => exact ⟨overlay, rfl⟩
        | _ => cases hobject
      rw [valueAt?_cons, valueAt?_cons, valueAt?_cons, get?_merge h]
      change _ = match (find? key overlay).bind (valueAt? path) with
        | some v => _
        | none => _
      cases hkey : find? key overlay with
      | none =>
        have hfree : ¬ Blocks (.object overlay) (key :: path) := by
          simp [blocks_cons_iff, isObject, get?, hkey]
        exact (if_neg hfree).symm
      | some v =>
        have hblocks : Blocks (.object overlay) (key :: path) ↔ Blocks v path := by
          simp [blocks_cons_iff, isObject, get?, hkey]
        rw [Option.bind_some, Option.bind_some]
        cases hbelow : base.get? key with
        | some old => simpa only [hblocks, Option.bind_some, laidOver] using ih (h.of_get? hkey) old
        | none =>
          -- nothing is below, so the value of the overlay stands here as it is
          cases hv : v.valueAt? path <;> simp [laidOver, hv]
    · rw [Bool.not_eq_true] at hobject
      have hblocks : Blocks w (key :: path) := blocks_cons_iff.mpr (.inl hobject)
      rw [merge_of_overlay_not_object hobject, valueAt?_of_blocks hblocks, if_pos hblocks]

theorem sorted_of_merge (hbase : KeysInOrder base) (hv : KeysInOrder v)
    (h : merge base v = .object fields) : Sorted fields := by
  cases v with
  | object overlay =>
    cases base with
    | object below =>
      rw [merge] at h
      obtain rfl : mergeFields below overlay = fields := Json.object.inj h
      exact hbase.sorted.mergeFields overlay
    | _ =>
      rw [merge_of_not_object rfl] at h
      exact hv [] fields (congrArg some h)
  | _ =>
    rw [merge_of_overlay_not_object rfl] at h
    cases h

theorem KeysInOrder.merge (hbase : KeysInOrder base) (h : KeysInOrder w) :
    KeysInOrder (merge base w) := by
  intro path fields hfields
  rw [valueAt?_merge h] at hfields
  cases hfound : w.valueAt? path with
  | none =>
    simp only [hfound, Option.ite_none_left_eq_some] at hfields
    exact hbase path fields hfields.2
  | some v =>
    simp only [hfound, Option.some.injEq] at hfields
    have hv := h.of_valueAt? hfound
    cases hbelow : base.valueAt? path with
    | none =>
      rw [hbelow] at hfields
      exact hv [] fields (congrArg some hfields)
    | some old =>
      rw [hbelow] at hfields
      exact sorted_of_merge (hbase.of_valueAt? hbelow) hv hfields

theorem laidOver_of_not_object (h : v.isObject = false) (below : Option Json) :
    laidOver below v = v := by
  cases below with
  | none => rfl
  | some old => exact merge_of_overlay_not_object h old

/-- What is below has no part in what is seen of a value that is laid over it. -/
theorem face_laidOver (below : Option Json) (v : Json) : face (laidOver below v) = face v := by
  cases v with
  | object overlay =>
    have hobject := isObject_laidOver below (.object overlay)
    cases hlaid : laidOver below (.object overlay) with
    | object fields => rfl
    | _ =>
      rw [hlaid] at hobject
      cases hobject
  | _ => rw [laidOver_of_not_object rfl]

/-- The same value laid over again changes nothing. -/
theorem merge_merge (hbase : KeysInOrder base) (h : KeysInOrder w) :
    merge (merge base w) w = merge base w := by
  have hmerged := hbase.merge h
  refine eq_of_face (hmerged.merge h) hmerged fun path => ?_
  have hfirst := valueAt?_merge h base path
  rw [valueAt?_merge h (merge base w)]
  cases hfound : w.valueAt? path with
  | none =>
    rw [hfound] at hfirst
    dsimp only at hfirst ⊢
    split
    · rename_i hblocks
      rw [hfirst, if_pos hblocks]
    · rfl
  | some v =>
    rw [hfound] at hfirst
    rw [hfirst, Option.map_some, Option.map_some, face_laidOver, face_laidOver]

end Json

/-! ## Values that have their keys in order -/

open Json in
mutual

theorem JsonSource.keysInOrder_of_value? :
    ∀ {room : Nat} (x : JsonSource) {v : Json}, x.value? room = some v → KeysInOrder v
  | _, .null, _, h => by
    cases h
    exact keysInOrder_of_not_object rfl
  | _, .bool _, _, h => by
    cases h
    exact keysInOrder_of_not_object rfl
  | _, .number _, _, h => by
    obtain ⟨n, -, rfl⟩ := Option.map_eq_some_iff.mp h
    exact keysInOrder_of_not_object rfl
  | _, .string _, _, h => by
    obtain ⟨t, -, rfl⟩ := Option.map_eq_some_iff.mp h
    exact keysInOrder_of_not_object rfl
  | _, .array _, _, h => by
    obtain ⟨-, h⟩ := Option.ite_none_left_eq_some.mp h
    obtain ⟨items, -, rfl⟩ := Option.map_eq_some_iff.mp h
    exact keysInOrder_of_not_object rfl
  | _, .object fields, _, h => by
    obtain ⟨-, h⟩ := Option.ite_none_left_eq_some.mp h
    obtain ⟨read, hread, rfl⟩ := Option.map_eq_some_iff.mp h
    exact keysInOrder_ofFields (keysInOrder_of_fields? fields hread)

theorem JsonSource.keysInOrder_of_fields? :
    ∀ {room : Nat} (xs : List (Option String × JsonSource)) {read : Fields},
      JsonSource.fields? room xs = some read → ∀ kv ∈ read, KeysInOrder kv.2
  | _, [], _, h => by
    cases h
    exact nofun
  | _, (none, _) :: _, _, h => by cases h
  | _, (some k, x) :: r, _, h => by
    rw [JsonSource.fields?] at h
    split at h
    · cases h
    · rename_i v hv
      obtain ⟨rest, hrest, rfl⟩ := Option.map_eq_some_iff.mp h
      exact List.forall_mem_cons.mpr
        ⟨keysInOrder_of_value? x hv, keysInOrder_of_fields? r hrest⟩

end

namespace Json

/-- The values of texts have their keys in order. -/
theorem keysInOrder_of_parse? {text : String} {v : Json} (h : Json.parse? text = some v) :
    KeysInOrder v := by
  obtain ⟨source, -, hv⟩ := Option.bind_eq_some_iff.mp h
  exact JsonSource.keysInOrder_of_value? source hv

end Json

/-- Settings are written with their keys in order. -/
theorem Config.keysInOrder_toJson (c : Config) : Json.KeysInOrder c.toJson := by
  have hpart : ∀ part : Json.Fields, (∀ kv ∈ part, kv.2.isObject = false) →
      Json.KeysInOrder (Json.ofFields part) := fun part hpart =>
    Json.keysInOrder_ofFields fun kv hkv => Json.keysInOrder_of_not_object (hpart kv hkv)
  refine Json.keysInOrder_ofFields ?_
  simp only [List.forall_mem_cons]
  refine ⟨hpart _ ?_, hpart _ ?_, hpart _ ?_, nofun⟩
  · simp only [List.forall_mem_cons]
    exact ⟨rfl, Json.isObject_ofOption _, Json.isObject_ofOption _, Json.isObject_ofOption _, rfl,
      rfl, nofun⟩
  · simp only [List.forall_mem_append, List.forall_mem_cons]
    exact ⟨⟨rfl, rfl, rfl, rfl, rfl, Json.isObject_ofSingle _, rfl, nofun⟩,
      Json.isObject_ofDouble _, nofun⟩
  · simp only [List.forall_mem_cons]
    exact ⟨rfl, rfl, nofun⟩

namespace Json

variable {base overlay : Fields}

/-- Merging goes by paths.  A value of the overlay that is no object is what is left at its path, an
object of it leaves an object, nothing is left behind one of its values that is no object, and where
it has nothing and is not in the way what was there is left as it was.  So nothing laid over changes
nothing, and neither does the same overlay laid over once more. -/
theorem merge_byPath (hbase : KeysInOrder (.object base)) (h : KeysInOrder (.object overlay)) :
    (∀ path v, valueAt? path (.object overlay) = some v → v.isObject = false →
      valueAt? path (merge (.object base) (.object overlay)) = some v) ∧
    (∀ path v, valueAt? path (.object overlay) = some v → v.isObject = true →
      ∃ w, valueAt? path (merge (.object base) (.object overlay)) = some w ∧ w.isObject = true) ∧
    (∀ path, Blocks (.object overlay) path →
      valueAt? path (merge (.object base) (.object overlay)) = none) ∧
    (∀ path, valueAt? path (.object overlay) = none → ¬ Blocks (.object overlay) path →
      valueAt? path (merge (.object base) (.object overlay)) = valueAt? path (.object base)) ∧
    merge (.object base) (.object []) = .object base ∧
    merge (merge (.object base) (.object overlay)) (.object overlay) =
      merge (.object base) (.object overlay) := by
  refine ⟨fun path v hv hobject => ?_, fun path v hv hobject => ?_, fun path hblocks => ?_,
    fun path hnone hfree => ?_, merge_empty base, merge_merge hbase h⟩
  · rw [valueAt?_merge h, hv]
    exact congrArg some (laidOver_of_not_object hobject _)
  · refine ⟨laidOver (valueAt? path (.object base)) v, ?_, ?_⟩
    · rw [valueAt?_merge h, hv]
    · rw [isObject_laidOver, hobject]
  · rw [valueAt?_merge h, valueAt?_of_blocks hblocks]
    exact if_pos hblocks
  · rw [valueAt?_merge h, hnone]
    exact if_neg hfree

/-- Settings as they are recorded: a part, and a text in place of another. -/
def recorded : Fields :=
  [("analysis", .object [("include", .array [.string "*.go"]), ("rules", .nat 1)]),
    ("provider", .string "openai")]

/-- Settings to lay over them, with objects over what is none, and `null` in place of a part. -/
def laid : Fields :=
  [("analysis", .object [("rules", .object [("a", .null)])]),
    ("provider", .object [("model", .nat 5)]), ("retry", .null)]

theorem merge_byPath_mixed :
    KeysInOrder (.object recorded) ∧ KeysInOrder (.object laid) ∧
      valueAt? ["analysis", "rules", "a"] (merge (.object recorded) (.object laid)) = some .null ∧
      (∃ w, valueAt? ["provider"] (merge (.object recorded) (.object laid)) = some w ∧
        w.isObject = true) ∧
      Blocks (.object laid) ["retry", "tries"] ∧
      valueAt? ["retry", "tries"] (merge (.object recorded) (.object laid)) = none ∧
      ¬ Blocks (.object laid) ["analysis", "include"] ∧
      valueAt? ["analysis", "include"] (merge (.object recorded) (.object laid)) =
        some (.array [.string "*.go"]) ∧
      merge (merge (.object recorded) (.object laid)) (.object laid) =
        merge (.object recorded) (.object laid) := by
  have hrecorded : KeysInOrder (.object recorded) :=
    JsonSource.keysInOrder_of_value? (.ofValue (.object recorded))
      (show JsonSource.value? 4 _ = _ from rfl)
  have hlaid : KeysInOrder (.object laid) :=
    JsonSource.keysInOrder_of_value? (.ofValue (.object laid))
      (show JsonSource.value? 4 _ = _ from rfl)
  have hblocks : Blocks (.object laid) ["retry", "tries"] := by decide
  have hfree : ¬ Blocks (.object laid) ["analysis", "include"] := by decide
  obtain ⟨hvalue, hobject, hblocked, hopen, -, htwice⟩ := merge_byPath hrecorded hlaid
  refine ⟨hrecorded, hlaid, hvalue _ _ rfl rfl, hobject _ _ rfl rfl, hblocks, hblocked _ hblocks,
    hfree, ?_, htwice⟩
  rw [hopen _ rfl hfree]
  rfl

end Json

end SmellWatch
