import SmellWatch.Proofs.Json.Lexer
/-! How deep the builder is in containers.

A token opens a container, closes one or does neither (`JsonBuilder.step_move`), so the containers
that are open are as many as the tokens so far have deepened (`length_of_run`).  When all of them
are closed nothing may follow.  So no part of a text that stands behind a beginning of it closes as
much as it opens (`deepening_neg`), and an array starts with its own bracket and ends with it
(`tokens_of_array`). -/

namespace SmellWatch

open JsonToken

variable {t : JsonToken} {ts us : List JsonToken} {v : JsonSource} {xs : List JsonSource}

/-- Neither an array nor an object. -/
def JsonSource.IsScalar : JsonSource → Prop
  | .array _ | .object _ => False
  | .null | .bool _ | .number _ | .string _ => True

def JsonSource.isArray : JsonSource → Bool
  | .array _ => true
  | .null | .bool _ | .number _ | .string _ | .object _ => false

def JsonFrame.isArray : JsonFrame → Bool
  | .array _ => true
  | .object .. => false

namespace JsonBuilder

variable {b b' : JsonBuilder} {frames : List JsonFrame} {f : JsonFrame} {k : Bool}

/-! ## What a token does -/

/-- What a token can do to the builder. -/
inductive Move (b : JsonBuilder) : JsonToken → JsonBuilder → Prop
  | openArray : Move b .openArray ⟨.array [] :: b.frames, .valueOrClose, none⟩
  | openObject : Move b .openObject ⟨.object [] none :: b.frames, .keyOrClose, none⟩
  | scalar {t : JsonToken} {v : JsonSource} :
      t.nesting = 0 → v.IsScalar → Move b t (put b.frames v)
  | closeArray {items : List JsonSource} {r : List JsonFrame} :
      b.frames = .array items :: r → Move b .closeArray (put r (.array items.reverse))
  | closeObject {fields : List (Option String × JsonSource)} {key : Option String}
      {r : List JsonFrame} :
      b.frames = .object fields key :: r → Move b .closeObject (put r (.object fields.reverse))
  | goOn {t : JsonToken} {f g : JsonFrame} {r : List JsonFrame} {expect : JsonExpect} :
      t.nesting = 0 → b.frames = f :: r → g.isArray = f.isArray →
        Move b t ⟨g :: r, expect, none⟩
  | colon : b.expect = .colon → Move b .colon ⟨b.frames, .value, none⟩

theorem move_of_value (h : value b.frames t = some b') : Move b t b' := by
  cases t with
  | openArray =>
    cases h
    exact .openArray
  | openObject =>
    cases h
    exact .openObject
  | null | bool | number | string =>
    cases h
    exact .scalar rfl trivial
  | closeArray | closeObject | comma | colon => cases h

theorem move_of_key (h : key b.frames t = some b') : Move b t b' := by
  unfold key at h
  split at h
  · rename_i hframes
    cases h
    exact .goOn rfl hframes rfl
  · cases h

theorem move_of_comma (h : comma b.frames = some b') : Move b .comma b' := by
  unfold comma at h
  split at h
  · rename_i hframes
    cases h
    exact .goOn rfl hframes rfl
  · rename_i hframes
    cases h
    exact .goOn rfl hframes rfl
  · cases h

theorem move_of_closeArray (h : closeArray b.frames = some b') : Move b .closeArray b' := by
  unfold closeArray at h
  split at h
  · rename_i hframes
    cases h
    exact .closeArray hframes
  · cases h

theorem move_of_closeObject (h : closeObject b.frames = some b') : Move b .closeObject b' := by
  unfold closeObject at h
  split at h
  · rename_i hframes
    cases h
    exact .closeObject hframes
  · cases h

theorem step_move (h : b.step t = some b') : Move b t b' := by
  unfold step at h
  split at h
  · exact move_of_value h
  · exact move_of_closeArray h
  · exact move_of_value h
  · exact move_of_closeObject h
  · exact move_of_key h
  · exact move_of_key h
  · rename_i hexpect
    cases h
    exact .colon hexpect
  · exact move_of_comma h
  · exact move_of_closeArray h
  · exact move_of_closeObject h
  · cases h

/-- Behind a finished text nothing is taken. -/
theorem step_of_nothing (h : b.expect = .nothing) (t : JsonToken) : b.step t = none := by
  unfold step
  rw [h]

/-! ## The open containers -/

/-- Which of the open containers are arrays, innermost first. -/
def kinds (frames : List JsonFrame) : List Bool := frames.map JsonFrame.isArray

/-- A value that is put into a container leaves it open. -/
theorem kinds_put (frames : List JsonFrame) (v : JsonSource) :
    kinds (put frames v).frames = kinds frames := by
  unfold put
  split <;> rfl

theorem length_frames_put (frames : List JsonFrame) (v : JsonSource) :
    (put frames v).frames.length = frames.length := by
  have hlength := congrArg List.length (kinds_put frames v)
  unfold kinds at hlength
  rwa [List.length_map, List.length_map] at hlength

/-- The text is finished exactly when a value is put into no container. -/
theorem put_finishes (h : (put frames v).frames = []) :
    put frames v = ⟨[], .nothing, some v⟩ := by
  unfold put at h ⊢
  split at h
  · rfl
  · cases h
  · cases h

theorem put_of_result {w : JsonSource} (h : (put frames v).result = some w) :
    frames = [] ∧ v = w := by
  unfold put at h
  split at h
  · exact ⟨rfl, Option.some.inj h⟩
  · cases h
  · cases h

theorem length_of_step (h : b.step t = some b') :
    (b'.frames.length : Int) = b.frames.length + t.nesting := by
  cases step_move h with
  | openArray => rfl
  | openObject => rfl
  | scalar hflat =>
    rw [length_frames_put, hflat]
    omega
  | closeArray hframes =>
    rw [length_frames_put, hframes, List.length_cons, nesting]
    omega
  | closeObject hframes =>
    rw [length_frames_put, hframes, List.length_cons, nesting]
    omega
  | goOn hflat hframes =>
    rw [hframes, hflat]
    simp
  | colon => exact (Int.add_zero _).symm

theorem length_of_run (h : b.run ts = some b') :
    (b'.frames.length : Int) = b.frames.length + deepening ts := by
  induction ts generalizing b with
  | nil =>
    cases h
    exact (Int.add_zero _).symm
  | cons t ts ih =>
    obtain ⟨m, hm, hrest⟩ := Option.bind_eq_some_iff.mp h
    have hfirst := length_of_step hm
    have hothers := ih hrest
    show _ = _ + (t.nesting + deepening ts)
    omega

/-- With no container open one waits for the value of the text, or it is finished. -/
def Settled (b : JsonBuilder) : Prop :=
  b.frames = [] → b.expect = .value ∨ b.expect = .nothing

/-- A token that leaves no container open finishes the text. -/
theorem finished_of_step (hb : b.Settled) (h : b.step t = some b') (hnil : b'.frames = []) :
    b'.expect = .nothing := by
  cases step_move h with
  | openArray => cases hnil
  | openObject => cases hnil
  | scalar => rw [put_finishes hnil]
  | closeArray => rw [put_finishes hnil]
  | closeObject => rw [put_finishes hnil]
  | goOn => cases hnil
  | colon hcolon =>
    rcases hb hnil with hvalue | hnothing
    · rw [hvalue] at hcolon
      cases hcolon
    · rw [hnothing] at hcolon
      cases hcolon

/-- There is a value only when no container is open. -/
theorem frames_of_step (h : b.step t = some b') (hv : b'.result = some v) : b'.frames = [] := by
  have hput : ∀ {frames : List JsonFrame} {w : JsonSource},
      (put frames w).result = some v → (put frames w).frames = [] := by
    intro frames w hresult
    rw [(put_of_result hresult).1]
    rfl
  cases step_move h with
  | openArray => cases hv
  | openObject => cases hv
  | scalar => exact hput hv
  | closeArray => exact hput hv
  | closeObject => exact hput hv
  | goOn => cases hv
  | colon => cases hv

theorem settled_start : start.Settled := fun _ => .inl rfl

theorem settled_of_run (hb : b.Settled) (h : b.run ts = some b') : b'.Settled := by
  induction ts generalizing b with
  | nil =>
    cases h
    exact hb
  | cons t ts ih =>
    obtain ⟨m, hm, hrest⟩ := Option.bind_eq_some_iff.mp h
    exact ih (fun hnil => .inr (finished_of_step hb hm hnil)) hrest

/-- The last token of some, and what was built before it. -/
theorem exists_last_step (hts : ts ≠ []) (h : b.run ts = some b') :
    ∃ us t m, ts = us ++ [t] ∧ b.run us = some m ∧ m.step t = some b' := by
  obtain ⟨us, t, rfl⟩ : ∃ us t, ts = us ++ [t] :=
    ⟨_, _, (List.dropLast_concat_getLast hts).symm⟩
  rw [run_append] at h
  obtain ⟨m, hm, hrest⟩ := Option.bind_eq_some_iff.mp h
  obtain ⟨m', hm', hnil⟩ := Option.bind_eq_some_iff.mp hrest
  cases hnil
  exact ⟨us, t, m, rfl, hm, hm'⟩

theorem frames_of_run (hts : ts ≠ []) (h : b.run ts = some b') (hv : b'.result = some v) :
    b'.frames = [] := by
  obtain ⟨us, t, m, rfl, -, hstep⟩ := exists_last_step hts h
  exact frames_of_step hstep hv

/-- Some tokens leave no container open only as the whole of a text. -/
theorem frames_ne_nil (hts : ts ≠ []) (h : start.run ts = some b) (hgo : b.step t ≠ none) :
    b.frames ≠ [] := by
  intro hnil
  obtain ⟨us, u, m, rfl, hm, hstep⟩ := exists_last_step hts h
  have hnothing := finished_of_step (settled_of_run settled_start hm) hstep hnil
  exact hgo (step_of_nothing hnothing t)

/-! ## The outermost container -/

/-- The outermost container is an array, or an object, and so is the value once it is closed. -/
def HasRoot (k : Bool) (b : JsonBuilder) : Prop :=
  (kinds b.frames).getLast? = some k ∨
    (b.frames = [] ∧ b.expect = .nothing ∧ ∃ v, b.result = some v ∧ v.isArray = k)

/-- A container that is closed was in the outermost one, or is the value. -/
theorem HasRoot.of_put {frames : List JsonFrame} {j : Bool}
    (hlast : (j :: kinds frames).getLast? = some k) (hv : v.isArray = j) :
    HasRoot k (put frames v) := by
  cases frames with
  | nil => exact .inr ⟨rfl, rfl, v, rfl, hv.trans (Option.some.inj hlast)⟩
  | cons f r =>
    left
    rw [kinds_put]
    exact hlast

theorem HasRoot.step (hk : HasRoot k b) (h : b.step t = some b') : HasRoot k b' := by
  rcases hk with hlast | ⟨-, hnothing, -⟩
  · have hpush : ∀ j : Bool, (j :: kinds b.frames).getLast? = some k := by
      intro j
      rw [List.getLast?_cons, hlast]
      rfl
    cases step_move h with
    | openArray => exact .inl (hpush true)
    | openObject => exact .inl (hpush false)
    | scalar =>
      left
      rwa [kinds_put]
    | closeArray hframes =>
      rw [hframes] at hlast
      exact .of_put hlast rfl
    | closeObject hframes =>
      rw [hframes] at hlast
      exact .of_put hlast rfl
    | goOn _ hframes hkind =>
      left
      rw [hframes] at hlast
      show (JsonFrame.isArray _ :: _).getLast? = _
      rwa [hkind]
    | colon => exact .inl hlast
  · rw [step_of_nothing hnothing t] at h
    cases h

theorem HasRoot.run (hk : HasRoot k b) (h : b.run ts = some b') : HasRoot k b' := by
  induction ts generalizing b with
  | nil =>
    cases h
    exact hk
  | cons t ts ih =>
    obtain ⟨m, hm, hrest⟩ := Option.bind_eq_some_iff.mp h
    exact ih (hk.step hm) hrest

end JsonBuilder

/-! ## Whole texts -/

namespace JsonSource

open JsonBuilder

theorem ofTokens?_eq_some_iff :
    ofTokens? ts = some v ↔ ∃ b, start.run ts = some b ∧ b.result = some v :=
  Option.bind_eq_some_iff

/-- The last token of a text finishes it. -/
theorem last_of_ofTokens? (h : ofTokens? ts = some v) :
    ∃ us t m b, ts = us ++ [t] ∧ start.run us = some m ∧ m.step t = some b ∧
      b.result = some v := by
  obtain ⟨b, hrun, hv⟩ := ofTokens?_eq_some_iff.mp h
  have hne : ts ≠ [] := by
    rintro rfl
    cases hrun
    cases hv
  obtain ⟨us, t, m, rfl, hm, hstep⟩ := exists_last_step hne hrun
  exact ⟨us, t, m, b, rfl, hm, hstep, hv⟩

/-- A text closes what it opens. -/
theorem deepening_of_ofTokens? (h : ofTokens? ts = some v) : deepening ts = 0 := by
  obtain ⟨us, t, m, b, rfl, hm, hstep, hv⟩ := last_of_ofTokens? h
  have hall := length_of_run hm
  have hlast := length_of_step hstep
  rw [frames_of_step hstep hv] at hlast
  rw [deepening_append]
  show _ + (t.nesting + 0) = 0
  have hstart : start.frames.length = 0 := rfl
  have hnil : ([] : List JsonFrame).length = 0 := rfl
  omega

/-- Behind a beginning of a text more is closed than opened. -/
theorem deepening_neg (h : ofTokens? (ts ++ us) = some v) (hts : ts ≠ []) (hus : us ≠ []) :
    deepening us < 0 := by
  obtain ⟨b, hrun, hv⟩ := ofTokens?_eq_some_iff.mp h
  rw [run_append] at hrun
  obtain ⟨m, hm, hrest⟩ := Option.bind_eq_some_iff.mp hrun
  have hopen : m.frames ≠ [] := by
    obtain ⟨t, r, rfl⟩ := List.exists_cons_of_ne_nil hus
    obtain ⟨n, hn, -⟩ := Option.bind_eq_some_iff.mp hrest
    exact frames_ne_nil hts hm (by rw [hn]; exact Option.some_ne_none n)
  have hall := deepening_of_ofTokens? h
  rw [deepening_append] at hall
  have hdepth := length_of_run hm
  have hstart : start.frames.length = 0 := rfl
  have hpos := List.length_pos_iff.mpr hopen
  omega

/-- The tokens of a text are no text together with others, if those behind them open and close
nothing. -/
theorem eq_nil_of_surrounded {w : JsonSource} {ps qs : List JsonToken}
    (hts : ofTokens? ts = some v) (h : ofTokens? (ps ++ (ts ++ qs)) = some w)
    (hqs : ∀ t ∈ qs, t.nesting = 0) : ps = [] ∧ qs = [] := by
  have hne : ts ≠ [] := by
    obtain ⟨us, t, -, -, rfl, -⟩ := last_of_ofTokens? hts
    exact List.append_ne_nil_of_right_ne_nil us (List.cons_ne_nil t [])
  have hflat := deepening_of_ofTokens? hts
  have hfront : ps = [] := by
    by_contra hps'
    have hneg := deepening_neg h hps' (List.append_ne_nil_of_left_ne_nil hne qs)
    rw [deepening_append, hflat, deepening_eq_zero hqs] at hneg
    omega
  refine ⟨hfront, ?_⟩
  by_contra hqs'
  rw [hfront, List.nil_append] at h
  have hneg := deepening_neg h hne hqs'
  rw [deepening_eq_zero hqs] at hneg
  omega

/-- An array or an object is finished by the bracket that closes it. -/
theorem closes_of_ofTokens? (h : ofTokens? ts = some v) (hv : ¬ v.IsScalar) :
    ∃ t ∈ ts, t.nesting ≠ 0 := by
  obtain ⟨us, t, m, b, rfl, -, hstep, hresult⟩ := last_of_ofTokens? h
  refine ⟨t, by simp, ?_⟩
  cases step_move hstep with
  | openArray => cases hresult
  | openObject => cases hresult
  | scalar _ hscalar =>
    obtain ⟨-, rfl⟩ := put_of_result hresult
    exact absurd hscalar hv
  | closeArray => decide
  | closeObject => decide
  | goOn => cases hresult
  | colon => cases hresult

/-- An array is finished by its closing bracket, and so in a container. -/
theorem last_of_array {b b' : JsonBuilder} {t : JsonToken} (h : b.step t = some b')
    (hresult : b'.result = some (.array xs)) : t = .closeArray ∧ b.frames ≠ [] := by
  cases step_move h with
  | openArray => cases hresult
  | openObject => cases hresult
  | scalar _ hscalar =>
    obtain ⟨-, rfl⟩ := put_of_result hresult
    exact hscalar.elim
  | closeArray hframes =>
    rw [hframes]
    exact ⟨rfl, List.cons_ne_nil _ _⟩
  | closeObject =>
    obtain ⟨-, hobject⟩ := put_of_result hresult
    cases hobject
  | goOn => cases hresult
  | colon => cases hresult

/-- An array is begun by its opening bracket. -/
theorem first_of_array (h : ofTokens? (t :: ts) = some (.array xs)) (hne : ts ≠ []) :
    t = .openArray := by
  obtain ⟨b, hrun, hresult⟩ := ofTokens?_eq_some_iff.mp h
  obtain ⟨n, hn, hrest⟩ := Option.bind_eq_some_iff.mp hrun
  cases step_move hn with
  | openArray => rfl
  -- an object stays the outermost container, and no array comes of it
  | openObject =>
    have hroot : HasRoot false b := HasRoot.run (.inl rfl) hrest
    rcases hroot with hlast | ⟨-, -, w, hw, hkind⟩
    · rw [frames_of_run hne hrest hresult] at hlast
      cases hlast
    · rw [hresult] at hw
      cases hw
      cases hkind
  | scalar =>
    obtain ⟨u, r, rfl⟩ := List.exists_cons_of_ne_nil hne
    rw [JsonBuilder.run, step_of_nothing rfl] at hrest
    cases hrest
  | closeArray hframes => cases hframes
  | closeObject hframes => cases hframes
  | goOn _ hframes => cases hframes
  | colon hcolon => cases hcolon

/-- An array starts with its opening bracket and ends with its closing one. -/
theorem tokens_of_array (h : ofTokens? ts = some (.array xs)) :
    ∃ us, ts = .openArray :: (us ++ [.closeArray]) := by
  obtain ⟨us, t, m, b, rfl, hm, hstep, hresult⟩ := last_of_ofTokens? h
  obtain ⟨rfl, hopen⟩ := last_of_array hstep hresult
  cases us with
  | nil =>
    cases hm
    exact absurd rfl hopen
  | cons u us =>
    obtain rfl := first_of_array h (List.append_ne_nil_of_right_ne_nil us (List.cons_ne_nil _ _))
    exact ⟨us, rfl⟩

end JsonSource

end SmellWatch
