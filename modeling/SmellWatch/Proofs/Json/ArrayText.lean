import SmellWatch.Proofs.Json.Nesting
/-! The text of an array, cut out of what stands around it.

A text that reads as an array has nothing but blanks around the brackets of the array
(`arrayText_of_ofChars?`).  With plain characters around it, it reads as the same array or as
nothing (`IsArrayText.eq_of_surrounded`), and a part that starts behind its beginning reads as
nothing at all (`IsArrayText.ofChars?_rest`), not even from a bracket in it on
(`IsArrayText.ofChars?_bracket`). -/

namespace SmellWatch

open JsonToken JsonLexer JsonSource

variable {a d p q cs core : List Char} {ts us vs : List JsonToken} {xs : List JsonSource}
  {v : JsonSource} {e m : JsonLexer}

/-- A text from the opening bracket of an array to the closing one, with its tokens. -/
structure IsArrayText (core : List Char) (ts : List JsonToken) (xs : List JsonSource) : Prop where
  brackets : ∃ mid, core = '[' :: (mid ++ [']'])
  steps : Steps .between core ts .between
  value : ofTokens? ts = some (.array xs)

theorem ofChars?_eq_some_iff :
    ofChars? cs = some v ↔
      ∃ e us vs, Steps .between cs us e ∧ e.finish = some vs ∧ ofTokens? (us ++ vs) = some v := by
  unfold ofChars?
  rw [Option.bind_eq_some_iff]
  constructor
  · rintro ⟨ts, hts, hv⟩
    obtain ⟨e, us, vs, hsteps, hfinish, rfl⟩ := jsonTokens_eq_some_iff.mp hts
    exact ⟨e, us, vs, hsteps, hfinish, hv⟩
  · rintro ⟨e, us, vs, hsteps, hfinish, hv⟩
    exact ⟨us ++ vs, jsonTokens_eq_some_iff.mpr ⟨e, us, vs, hsteps, hfinish, rfl⟩, hv⟩

/-- A list cut at the last place of one of its members. -/
theorem eq_append_cons_of_mem_last {α : Type} {x : α} {l : List α} (h : x ∈ l) :
    ∃ s t, l = s ++ x :: t ∧ x ∉ t := by
  obtain ⟨s, t, hst, hs⟩ := List.eq_append_cons_of_mem (List.mem_reverse.mpr h)
  refine ⟨t.reverse, s.reverse, ?_, fun ht => hs (List.mem_reverse.mp ht)⟩
  rw [← List.reverse_reverse l, hst]
  simp

/-- What comes last in a list comes last in the part behind. -/
theorem exists_concat_of_append_eq {α : Type} {x : α} {l r s : List α} (h : l ++ r = s ++ [x])
    (hr : r ≠ []) : ∃ t, r = t ++ [x] := by
  have hlast := congrArg List.getLast? h
  rw [List.getLast?_append, List.getLast?_concat, List.getLast?_eq_some_getLast hr] at hlast
  refine ⟨r.dropLast, ?_⟩
  rw [← Option.some.inj hlast]
  exact (List.dropLast_concat_getLast hr).symm

theorem mem_of_append_eq_concat {α : Type} {x : α} {l r s : List α} (h : l ++ r = s ++ [x])
    (hr : r ≠ []) : x ∈ r := by
  obtain ⟨t, rfl⟩ := exists_concat_of_append_eq h hr
  exact List.mem_append_right t List.mem_cons_self

/-- Before the opening bracket of an array there are only blanks. -/
theorem exists_front (h : Steps .between cs us e) (hfinish : e.finish = some vs)
    (htokens : us ++ vs = .openArray :: ts) :
    ∃ front r os, cs = front ++ '[' :: r ∧ (∀ c ∈ front, isJsonBlank c = true) ∧
      us = .openArray :: os ∧ Steps .between r os e := by
  have hopen : .openArray ∈ us := by
    have hmem : .openArray ∈ us ++ vs := htokens ▸ List.mem_cons_self
    rcases List.mem_append.mp hmem with hmem | hmem
    · exact hmem
    · cases nesting_of_finish hfinish hmem
  obtain ⟨front, r, rfl, hfront⟩ := List.eq_append_cons_of_mem (h.mem_of_mem.1 hopen)
  obtain ⟨m, fs, gs, hfs, hgs, rfl⟩ := h.append_inv
  -- no token comes of the front: the first of them is the bracket, which is not in it
  have hnofs : fs = [] := by
    cases fs with
    | nil => rfl
    | cons t fs =>
      obtain rfl : t = .openArray := (List.cons.inj htokens).1
      exact absurd (hfs.mem_of_mem.1 List.mem_cons_self) hfront
  subst hnofs
  have hm : m = .between := by
    by_contra hm
    obtain ⟨t, r', ht, htflat⟩ := hgs.first_of_begun hm hfinish
    obtain rfl : t = .openArray := (List.cons.inj (ht.symm.trans htokens)).1
    cases htflat
  subst hm
  obtain ⟨m, os, hs, hstep, hrest, rfl⟩ := hgs.cons_inv
  cases hstep
  exact ⟨front, r, hs, rfl, (Steps.blank_of_silent hfs).2, rfl, hrest⟩

/-- Behind the closing bracket of an array there are only blanks. -/
theorem exists_back (h : Steps .between cs us .between) (htokens : us = ts ++ [.closeArray]) :
    ∃ mid back, cs = mid ++ ']' :: back ∧ (∀ c ∈ back, isJsonBlank c = true) ∧
      Steps .between (mid ++ [']']) us .between := by
  have hclose : .closeArray ∈ us := by
    rw [htokens]
    exact List.mem_append_right ts List.mem_cons_self
  obtain ⟨mid, back, rfl, hback⟩ := eq_append_cons_of_mem_last (h.mem_of_mem.2 hclose)
  rw [List.append_cons] at h
  obtain ⟨n, is, ks, his, hks, rfl⟩ := h.append_inv
  -- no token comes of the back: the last of them is the bracket, which is not in it
  have hnoks : ks = [] := by
    by_contra hne
    exact hback (hks.mem_of_mem.2 (mem_of_append_eq_concat htokens hne))
  subst hnoks
  obtain ⟨rfl, hblank⟩ := Steps.blank_of_silent hks
  rw [List.append_nil]
  exact ⟨mid, back, rfl, hblank, his⟩

/-- A text whose last token is a bracket does not end in a word. -/
theorem between_of_finish (hfinish : e.finish = some vs)
    (htokens : us ++ vs = ts ++ [.closeArray]) : e = .between ∧ vs = [] := by
  have hnovs : vs = [] := by
    by_contra hne
    cases nesting_of_finish hfinish (mem_of_append_eq_concat htokens hne)
  subst hnovs
  cases e with
  | between => exact ⟨rfl, rfl⟩
  | bare => simp [finish] at hfinish
  | quoted | escape | code => cases hfinish

/-- Around the brackets of an array there are only blanks. -/
theorem arrayText_of_ofChars? (h : ofChars? cs = some (.array xs)) :
    ∃ front core back ts, cs = front ++ (core ++ back) ∧
      (∀ c ∈ front, isJsonBlank c = true) ∧ (∀ c ∈ back, isJsonBlank c = true) ∧
      IsArrayText core ts xs := by
  obtain ⟨e, us, vs, hsteps, hfinish, hv⟩ := ofChars?_eq_some_iff.mp h
  obtain ⟨ws, hws⟩ := tokens_of_array hv
  obtain ⟨front, r, os, rfl, hblankFront, rfl, hrest⟩ := exists_front hsteps hfinish hws
  have htail : os ++ vs = ws ++ [.closeArray] := (List.cons.inj hws).2
  obtain ⟨rfl, rfl⟩ := between_of_finish hfinish htail
  rw [List.append_nil] at htail hv
  obtain ⟨mid, back, rfl, hblankBack, hcore⟩ := exists_back hrest htail
  refine ⟨front, '[' :: (mid ++ [']']), back, _, ?_, hblankFront, hblankBack, ⟨mid, rfl⟩, ?_, hv⟩
  · simp
  · exact .token rfl hcore

namespace IsArrayText

/-- An array text reads as its array. -/
theorem ofChars?_eq (h : IsArrayText core ts xs) : ofChars? core = some (.array xs) :=
  ofChars?_eq_some_iff.mpr
    ⟨.between, ts, [], h.steps, rfl, by rw [List.append_nil]; exact h.value⟩

/-- Plain characters around an array text do not make another value of it. -/
theorem eq_of_surrounded (h : IsArrayText core ts xs) (hp : ∀ c ∈ p, IsPlain c)
    (hq : ∀ c ∈ q, IsPlain c) (hv : ofChars? (p ++ (core ++ q)) = some v) : v = .array xs := by
  obtain ⟨e, us, vs, hsteps, hfinish, hvalue⟩ := ofChars?_eq_some_iff.mp hv
  obtain ⟨m, ps, gs, hps, hgs, rfl⟩ := hsteps.append_inv
  obtain ⟨n, cs, qs, hcs, hqs, rfl⟩ := hgs.append_inv
  have hm := (hps.of_plain trivial hp).1
  -- the bracket ends what stands before it, and from there on the array is read as ever
  obtain ⟨mid, rfl⟩ := h.brackets
  obtain ⟨k, os, rs, hstep, hrest, rfl⟩ := hcs.cons_inv
  obtain ⟨rfl, os, -, rfl⟩ := step_bracket hm hstep
  obtain ⟨k, os', rs', hstep', hrest', hts⟩ := h.steps.cons_inv
  cases hstep'
  obtain ⟨rfl, rfl⟩ := hrest.det hrest'
  have hflat := (hqs.of_plain trivial hq).2
  have htokens : ofTokens? ((ps ++ os) ++ (ts ++ (qs ++ vs))) = some v := by
    rw [hts]
    simpa only [List.append_assoc] using hvalue
  have hnothing := eq_nil_of_surrounded h.value htokens (by
    intro t ht
    rcases List.mem_append.mp ht with ht | ht
    · exact hflat t ht
    · exact nesting_of_finish hfinish ht)
  rw [hnothing.1, hnothing.2, List.append_nil, List.nil_append, h.value] at htokens
  exact (Option.some.inj htokens).symm

/-- What stands behind a character of an array text goes on to the closing bracket. -/
theorem exists_concat {c : Char} (h : IsArrayText core ts xs) (hcore : core = a ++ c :: d)
    (hc : c ≠ ']') : ∃ r, d = r ++ [']'] := by
  obtain ⟨mid, hmid⟩ := h.brackets
  rw [List.append_cons] at hcore
  refine exists_concat_of_append_eq (s := '[' :: mid) (hcore.symm.trans hmid) ?_
  rintro rfl
  rw [List.append_nil] at hcore
  have hlast := congrArg List.getLast? (hcore.symm.trans hmid)
  rw [List.getLast?_concat, ← List.cons_append, List.getLast?_concat] at hlast
  exact hc (Option.some.inj hlast)

/-- What is left of an array text behind some of it closes more than it opens. -/
theorem deepening_neg (h : IsArrayText core ts xs) (hcore : core = a ++ d) (ha : a ≠ [])
    (hd : d ≠ []) (hus : Steps .between a us m) (hvs : Steps m d vs .between) :
    deepening vs < 0 := by
  obtain ⟨rfl, -⟩ := (hcore ▸ h.steps).det (hus.append hvs)
  obtain ⟨mid, hmid⟩ := h.brackets
  refine JsonSource.deepening_neg h.value ?_ ?_
  · rintro rfl
    obtain ⟨c, r, rfl⟩ := List.exists_cons_of_ne_nil ha
    obtain rfl : '[' = c := (List.cons.inj (hmid.symm.trans hcore)).1
    obtain ⟨k, os, rs, hstep, -, hnil⟩ := hus.cons_inv
    cases hstep
    cases hnil
  · rintro rfl
    have hlast : ']' ∈ d := mem_of_append_eq_concat (s := '[' :: mid) (hcore.symm.trans hmid) hd
    exact absurd ((Steps.blank_of_silent hvs).2 _ hlast) (by decide)

/-- What is left of an array text behind some of it, from between two tokens, is no text. -/
theorem ofChars?_rest (h : IsArrayText core ts xs) (hcore : core = a ++ d) (ha : a ≠ [])
    (hd : d ≠ []) (hus : Steps .between a us .between) (hq : ∀ c ∈ q, IsPlain c) :
    ofChars? (d ++ q) = none := by
  by_contra hsome
  obtain ⟨v, hv⟩ := Option.ne_none_iff_exists'.mp hsome
  obtain ⟨e, gs, fs, hsteps, hfinish, hvalue⟩ := ofChars?_eq_some_iff.mp hv
  obtain ⟨n, vs, qs, hvs, hqs, rfl⟩ := hsteps.append_inv
  obtain ⟨n', us', vs', hus', hvs', -⟩ := (hcore ▸ h.steps).append_inv
  obtain ⟨-, rfl⟩ := hus'.det hus
  obtain ⟨rfl, rfl⟩ := hvs'.det hvs
  have hneg := h.deepening_neg hcore ha hd hus hvs'
  have hall := deepening_of_ofTokens? hvalue
  rw [deepening_append, deepening_append, deepening_eq_zero (hqs.of_plain trivial hq).2,
    deepening_eq_zero fun t ht => nesting_of_finish hfinish ht] at hall
  omega

/-- What is left of an array text from a bracket in it on is no text: either the bracket is a
token, or it stands in a string, and then what is outside of strings comes to be inside. -/
theorem ofChars?_bracket (h : IsArrayText core ts xs) (hcore : core = a ++ '[' :: d)
    (ha : a ≠ []) : ofChars? ('[' :: d) = none := by
  by_contra hsome
  obtain ⟨v, hv⟩ := Option.ne_none_iff_exists'.mp hsome
  obtain ⟨e, gs, fs, hgs, hfinish, hvalue⟩ := ofChars?_eq_some_iff.mp hv
  obtain ⟨k, os, rs, hstep, hrest, rfl⟩ := hgs.cons_inv
  cases hstep
  obtain ⟨m, us, vs, hus, hvs, -⟩ := (hcore ▸ h.steps).append_inv
  obtain ⟨k, os, rs', hstep, hrest', rfl⟩ := hvs.cons_inv
  by_cases hm : m.IsOutside
  · obtain ⟨rfl, os, hflat, rfl⟩ := step_bracket hm hstep
    obtain ⟨rfl, rfl⟩ := hrest.det hrest'
    have hneg := h.deepening_neg hcore ha (List.cons_ne_nil '[' d) hus hvs
    have hall := deepening_of_ofTokens? hvalue
    cases hfinish
    rw [List.append_nil] at hall
    rw [List.append_assoc, deepening_append, deepening_eq_zero hflat, Int.zero_add] at hneg
    omega
  · obtain ⟨units, rfl⟩ := step_bracket_inside hm hstep
    exact Finishes.not_quoted (l := .between) trivial ⟨e, rs, fs, hrest, hfinish⟩ units
      ⟨.between, rs', [], hrest', rfl⟩

end IsArrayText

end SmellWatch
