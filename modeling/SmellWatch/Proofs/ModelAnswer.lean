import Mathlib
import SmellWatch.ModelAnswer
import SmellWatch.Proofs.Json.ArrayText
import SmellWatch.Proofs.Text.Blank
/-! Findings in an answer with something around them.

An answer is an array with prose around it: text without brackets and quotation marks, which may
have fences in it.  What stands around the array is passed over, with one exception.  The line of a
fence in front of everything is cut off to its end, with the beginning of the array if that is on
it.  So the findings are those of the array alone exactly if the array does not begin on a line of
a fence that has another line after it (`findings_inProse_iff`). -/

namespace SmellWatch.ModelAnswer

open JsonLexer JsonSource

variable {a c₁ c₂ cs core d p q u w : List Char} {ts us : List JsonToken} {xs : List JsonSource}
  {c : Char} {items : List Json} {pre array post text : String} {v : Json}

/-- Text that may stand around an array. -/
def IsProse (s : String) : Prop := ∀ c ∈ s.toList, IsPlain c

instance (s : String) : Decidable (IsProse s) :=
  List.decidableBAll IsPlain s.toList

/-- The answer starts with a fence, and the first bracket is on the line of the fence, which is
not the only line. -/
def OpensOnFenceLine (s : String) : Prop :=
  fence <+: Text.trimChars s.toList ∧ '\n' ∈ Text.trimChars s.toList ∧
    '[' ∈ (Text.trimChars s.toList).takeWhile (· ≠ '\n')

instance (s : String) : Decidable (OpensOnFenceLine s) :=
  inferInstanceAs (Decidable (_ ∧ _ ∧ _))

/-! ## Taking a fence off -/

/-- What stands behind the first line, or everything if there is no other. -/
def afterLine (cs : List Char) : List Char :=
  match cs.dropWhile (· ≠ '\n') with
  | [] => cs
  | _ :: r => r

/-- What stands before the fence at the end. -/
def beforeFence (body : List Char) : List Char :=
  Text.trimChars ((dropBack? fence (Text.dropBlankEnd body)).getD body)

theorem unfence_fence (cs : List Char) : unfence (fence ++ cs) = beforeFence (afterLine cs) := by
  have hfront : dropFront? fence (fence ++ cs) = some cs := by
    unfold dropFront?
    rw [if_pos (List.isPrefixOf_iff_prefix.mpr (List.prefix_append fence cs)), List.drop_left]
  unfold unfence
  rw [hfront]
  rfl

theorem unfence_of_not_fence (h : ¬ fence <+: cs) : unfence cs = cs := by
  have hfront : dropFront? fence cs = none := by
    unfold dropFront?
    rw [if_neg fun hprefix => h (List.isPrefixOf_iff_prefix.mp hprefix)]
  unfold unfence
  rw [hfront]

theorem afterLine_append (h : '\n' ∉ u) (w : List Char) : afterLine (u ++ '\n' :: w) = w := by
  have hdrop : (u ++ '\n' :: w).dropWhile (· ≠ '\n') = '\n' :: w := by
    rw [List.dropWhile_append_of_pos]
    · rfl
    · intro c hc
      exact decide_eq_true fun heq => h (heq ▸ hc)
  unfold afterLine
  rw [hdrop]

theorem afterLine_of_not_mem (h : '\n' ∉ cs) : afterLine cs = cs := by
  have hdrop : cs.dropWhile (· ≠ '\n') = [] :=
    List.dropWhile_eq_nil_iff.mpr fun c hc => decide_eq_true fun heq => h (heq ▸ hc)
  unfold afterLine
  rw [hdrop]

theorem eq_of_dropBack? (h : dropBack? d cs = some w) : cs = w ++ d := by
  unfold dropBack? at h
  split at h
  · rename_i hsuffix
    cases h
    obtain ⟨t, rfl⟩ := List.isSuffixOf_iff_suffix.mp hsuffix
    simp
  · cases h

theorem not_mem_fence : '[' ∉ fence ∧ ']' ∉ fence ∧ '\n' ∉ fence := by decide

/-- A fence in front of a bracket is all before it. -/
theorem prefix_of_prefix_append (h : fence <+: p ++ '[' :: w) : fence <+: p := by
  obtain ⟨t, ht⟩ := h
  rcases List.append_eq_append_iff.mp ht with ⟨r, hp, -⟩ | ⟨r, hfence, hr⟩
  · exact ⟨r, hp.symm⟩
  · cases r with
    | nil => exact ⟨[], by rw [hfence, List.append_nil, List.append_nil]⟩
    | cons b r =>
      obtain rfl : '[' = b := (List.cons.inj hr).1
      exact absurd (hfence ▸ List.mem_append_right p List.mem_cons_self) not_mem_fence.1

/-- A fence behind a bracket is all after it. -/
theorem eq_of_append_fence (h : p ++ ']' :: q = w ++ fence) :
    ∃ r, w = p ++ ']' :: r ∧ q = r ++ fence := by
  rcases List.append_eq_append_iff.mp h with ⟨r, hw, hr⟩ | ⟨r, -, hr⟩
  · cases r with
    | nil =>
      rw [List.nil_append] at hr
      exact absurd (hr ▸ List.mem_cons_self) not_mem_fence.2.1
    | cons b r =>
      obtain ⟨rfl, rfl⟩ := List.cons.inj hr
      exact ⟨r, hw, rfl⟩
  · exact absurd (hr ▸ List.mem_append_right r List.mem_cons_self : ']' ∈ fence)
      not_mem_fence.2.1

/-- Behind the last bracket nothing but plain characters goes or stays. -/
theorem trimChars_bracket (p q : List Char) :
    Text.trimChars (p ++ ']' :: q) = Text.dropBlank (p ++ [']']) ++ Text.dropBlankEnd q := by
  have hmem : ']' ∈ p ++ [']'] := List.mem_append_right p List.mem_cons_self
  have hne : Text.dropBlank (p ++ [']']) ≠ [] := by
    intro hnil
    exact absurd (List.dropWhile_eq_nil_iff.mp hnil ']' hmem) (by decide)
  obtain ⟨r, hr⟩ : ∃ r, Text.dropBlank (p ++ [']']) = r ++ [']'] := by
    obtain ⟨s, hs⟩ : Text.dropBlank (p ++ [']']) <:+ p ++ [']'] := List.dropWhile_suffix _
    exact exists_concat_of_append_eq hs hne
  rw [List.append_cons, Text.trimChars, Text.dropBlank_append hmem (by decide), hr,
    List.append_assoc, List.append_assoc]
  exact Text.dropBlankEnd_append (by decide) r q

theorem beforeFence_bracket (p : List Char) (hq : ∀ c ∈ q, IsPlain c) :
    ∃ r, (∀ c ∈ r, IsPlain c) ∧
      beforeFence (p ++ ']' :: q) = Text.dropBlank (p ++ [']']) ++ r := by
  have hblank : Text.dropBlankEnd (p ++ ']' :: q) = p ++ ']' :: Text.dropBlankEnd q :=
    Text.dropBlankEnd_append (by decide) p q
  unfold beforeFence
  rw [hblank]
  cases hback : dropBack? fence (p ++ ']' :: Text.dropBlankEnd q) with
  | none =>
    exact ⟨_, fun c hc => hq c (Text.mem_of_mem_dropBlankEnd hc), trimChars_bracket p q⟩
  | some w =>
    obtain ⟨r, rfl, hr⟩ := eq_of_append_fence (eq_of_dropBack? hback)
    refine ⟨_, ?_, trimChars_bracket p r⟩
    intro c hc
    refine hq c (Text.mem_of_mem_dropBlankEnd ?_)
    rw [hr]
    exact List.mem_append_left fence (Text.mem_of_mem_dropBlankEnd hc)

theorem mem_of_mem_beforeFence (h : c ∈ beforeFence cs) : c ∈ cs := by
  have hmem := Text.mem_of_mem_trimChars h
  cases hback : dropBack? fence (Text.dropBlankEnd cs) with
  | none =>
    rw [hback] at hmem
    exact hmem
  | some w =>
    rw [hback] at hmem
    refine Text.mem_of_mem_dropBlankEnd ?_
    rw [eq_of_dropBack? hback]
    exact List.mem_append_left fence hmem

/-! ## Looking for a value -/

/-- The value of a text, or else of what stands in brackets in it. -/
def valueIn? (cs : List Char) : Option Json :=
  match valueOf? cs with
  | some v => some v
  | none => (bracketed? cs).bind valueOf?

theorem payload?_eq (text : String) :
    payload? text = valueIn? (unfence (Text.trimChars text.toList)) := rfl

/-- From the first opening bracket to the last closing one. -/
theorem bracketed?_eq (hp : '[' ∉ p) (hq : ']' ∉ q) (w : List Char) :
    bracketed? (p ++ ('[' :: (w ++ [']']) ++ q)) = some ('[' :: (w ++ [']'])) := by
  have hopened : (p ++ ('[' :: (w ++ [']']) ++ q)).dropWhile (· ≠ '[') =
      '[' :: (w ++ [']']) ++ q := by
    rw [List.dropWhile_append_of_pos]
    · rfl
    · intro c hc
      exact decide_eq_true fun heq => hp (heq ▸ hc)
  have hclosed : (('[' :: (w ++ [']']) ++ q).reverse.dropWhile (· ≠ ']')).reverse =
      '[' :: (w ++ [']']) := by
    rw [List.reverse_append, List.dropWhile_append_of_pos]
    · rw [List.reverse_cons, List.reverse_append]
      simp
    · intro c hc
      exact decide_eq_true fun heq => hq (heq ▸ List.mem_reverse.mp hc)
  unfold bracketed?
  dsimp only
  rw [hopened, hclosed]
  rfl

theorem bracketed?_eq_none (h : '[' ∉ cs) : bracketed? cs = none := by
  have hopened : cs.dropWhile (· ≠ '[') = [] :=
    List.dropWhile_eq_nil_iff.mpr fun c hc => decide_eq_true fun heq => h (heq ▸ hc)
  unfold bracketed?
  rw [hopened]
  rfl

theorem valueOf?_eq_none (h : ofChars? cs = none) : valueOf? cs = none := by
  unfold valueOf?
  rw [h]
  rfl

/-- What has an array for its value is an array. -/
theorem array_of_value? {room : Nat} {s : JsonSource} (h : s.value? room = some (.array items)) :
    ∃ xs, s = .array xs := by
  cases s with
  | array xs => exact ⟨xs, rfl⟩
  | null | bool => cases h
  | number n =>
    obtain ⟨_, -, hn⟩ := Option.map_eq_some_iff.mp h
    cases hn
  | string t =>
    obtain ⟨_, -, ht⟩ := Option.map_eq_some_iff.mp h
    cases ht
  | object fields =>
    rw [value?] at h
    split at h
    · cases h
    · obtain ⟨_, -, hf⟩ := Option.map_eq_some_iff.mp h
      cases hf

/-- A text without brackets has a value that is neither an array nor an object. -/
theorem isScalar_of_plain (hcs : ∀ c ∈ cs, IsPlain c) {s : JsonSource}
    (h : ofChars? cs = some s) : s.IsScalar := by
  by_contra hs
  obtain ⟨e, us, vs, hsteps, hfinish, hvalue⟩ := ofChars?_eq_some_iff.mp h
  obtain ⟨t, ht, hnesting⟩ := closes_of_ofTokens? hvalue hs
  rcases List.mem_append.mp ht with ht | ht
  · exact hnesting ((hsteps.of_plain trivial hcs).2 t ht)
  · exact hnesting (nesting_of_finish hfinish ht)

/-- In prose the value of an array is found. -/
theorem valueIn?_inProse (h : IsArrayText core ts xs)
    (hvalue : value? depthLimit (.array xs) = some (.array items)) (hp : ∀ c ∈ p, IsPlain c)
    (hq : ∀ c ∈ q, IsPlain c) : valueIn? (p ++ (core ++ q)) = some (.array items) := by
  have hcore : valueOf? core = some (.array items) := by
    unfold valueOf?
    rw [h.ofChars?_eq]
    exact hvalue
  unfold valueIn?
  split
  · rename_i v hv
    obtain ⟨s, hs, hvs⟩ := Option.bind_eq_some_iff.mp hv
    rw [h.eq_of_surrounded hp hq hs, hvalue] at hvs
    exact hvs.symm
  · obtain ⟨mid, rfl⟩ := h.brackets
    rw [bracketed?_eq (fun hmem => hp _ hmem (by decide)) (fun hmem => hq _ hmem (by decide))]
    exact hcore

/-- Behind the end of a line in an array no value is found. -/
theorem valueIn?_rest (h : IsArrayText core ts xs) (hcore : core = c₁ ++ '\n' :: c₂)
    (hq : ∀ c ∈ q, IsPlain c) : valueIn? (Text.dropBlank c₂ ++ q) = none := by
  -- between two tokens there are blanks of JSON only
  obtain ⟨m, us, vs, hus, hvs, -⟩ := (hcore ▸ h.steps).append_inv
  obtain ⟨m', os, rs, hstep, hrs, rfl⟩ := hvs.cons_inv
  obtain rfl := step_newline hstep
  have hjson : ∀ c ∈ c₂.takeWhile Text.isBlank, isJsonBlank c = true := by
    have hwhole : Finishes .between (c₂.takeWhile Text.isBlank ++ Text.dropBlank c₂) := by
      rw [Text.dropBlank, List.takeWhile_append_dropWhile]
      exact ⟨_, rs, [], hrs, rfl⟩
    exact hwhole.isJsonBlank fun c hc => List.mem_takeWhile_imp hc
  have hsplit : core =
      (c₁ ++ '\n' :: c₂.takeWhile Text.isBlank) ++ Text.dropBlank c₂ := by
    rw [hcore, List.append_assoc, List.cons_append, Text.dropBlank,
      List.takeWhile_append_dropWhile]
  have hfront : Steps .between (c₁ ++ '\n' :: c₂.takeWhile Text.isBlank)
      (us ++ (os ++ [])) .between := hus.append (.cons hstep (steps_blank hjson))
  have hne : c₁ ++ '\n' :: c₂.takeWhile Text.isBlank ≠ [] := by simp
  have hlast : ']' ∈ Text.dropBlank c₂ := by
    obtain ⟨t, rfl⟩ := h.exists_concat hcore (by decide)
    rw [Text.dropBlank_append_inked (Text.startsInked_cons (by decide) [])]
    exact List.mem_append_right _ List.mem_cons_self
  have hwhole : valueOf? (Text.dropBlank c₂ ++ q) = none :=
    valueOf?_eq_none (h.ofChars?_rest hsplit hne (List.ne_nil_of_mem hlast) hfront hq)
  unfold valueIn?
  rw [hwhole]
  by_cases hbracket : '[' ∈ Text.dropBlank c₂
  · obtain ⟨u, w, huw, hu⟩ := List.eq_append_cons_of_mem hbracket
    rw [huw, ← List.append_assoc] at hsplit
    obtain ⟨r, rfl⟩ := h.exists_concat hsplit (by decide)
    rw [huw, List.append_assoc, bracketed?_eq hu fun hmem => hq _ hmem (by decide)]
    exact valueOf?_eq_none (h.ofChars?_bracket hsplit (by simp))
  · rw [bracketed?_eq_none]
    · rfl
    · intro hmem
      rcases List.mem_append.mp hmem with hmem | hmem
      · exact hbracket hmem
      · exact hq _ hmem (by decide)

/-! ## Findings -/

theorem findings_of_array (h : payload? text = some (.array items)) :
    findings text = .ok (elementFindings items) := by
  unfold findings elements
  rw [h]
  rfl

/-- Without brackets there are no findings. -/
theorem findings_ne_ok_of_plain (hcs : ∀ c ∈ cs, IsPlain c) (h : payload? text = valueIn? cs)
    (fs : List Finding) : findings text ≠ .ok fs := by
  have hnone : bracketed? cs = none := bracketed?_eq_none fun hmem => hcs _ hmem (by decide)
  unfold findings elements
  rw [h, valueIn?, hnone]
  cases hv : valueOf? cs with
  | none => exact nofun
  | some v =>
    obtain ⟨s, hs, hvalue⟩ := Option.bind_eq_some_iff.mp hv
    have hscalar := isScalar_of_plain hcs hs
    cases s with
    | array | object => exact hscalar.elim
    | null =>
      cases hvalue
      exact nofun
    | bool =>
      cases hvalue
      exact nofun
    | number n =>
      obtain ⟨_, -, rfl⟩ := Option.map_eq_some_iff.mp hvalue
      exact nofun
    | string t =>
      obtain ⟨_, -, rfl⟩ := Option.map_eq_some_iff.mp hvalue
      exact nofun

/-! ## Arrays in prose -/

/-- An array with plain characters around it that starts and ends without blanks. -/
structure IsWrapped (cs p core q : List Char) (ts : List JsonToken) (xs : List JsonSource) :
    Prop where
  parts : cs = p ++ (core ++ q)
  array : IsArrayText core ts xs
  front : ∀ c ∈ p, IsPlain c
  back : ∀ c ∈ q, IsPlain c

/-- What is left of an array in prose once blanks are taken off. -/
theorem isWrapped_of_prose (harray : ofChars? array.toList = some (.array xs))
    (hpre : IsProse pre) (hpost : IsProse post) :
    ∃ p core q ts,
      IsWrapped (Text.trimChars (pre ++ array ++ post).toList) p core q ts xs ∧
        ∀ c ∈ p, c ∈ pre.toList ∨ isJsonBlank c = true := by
  obtain ⟨front, core, back, ts, hcs, hfront, hback, hcore⟩ := arrayText_of_ofChars? harray
  obtain ⟨mid, rfl⟩ := hcore.brackets
  have hparts : (pre ++ array ++ post).toList =
      ((pre.toList ++ front) ++ '[' :: mid) ++ ']' :: (back ++ post.toList) := by
    rw [String.toList_append, String.toList_append, hcs]
    simp
  have hinked : Text.StartsInked ('[' :: (mid ++ [']'])) := Text.startsInked_cons (by decide) _
  have hp : ∀ c ∈ Text.dropBlank (pre.toList ++ front),
      c ∈ pre.toList ∨ isJsonBlank c = true := by
    intro c hc
    rcases List.mem_append.mp (Text.mem_of_mem_dropBlank hc) with hc | hc
    · exact .inl hc
    · exact .inr (hfront c hc)
  refine ⟨Text.dropBlank (pre.toList ++ front), _, Text.dropBlankEnd (back ++ post.toList), ts,
    ⟨?_, hcore, ?_, ?_⟩, hp⟩
  · rw [hparts, trimChars_bracket, List.append_assoc, List.cons_append,
      Text.dropBlank_append_inked hinked, List.append_assoc]
  · intro c hc
    rcases hp c hc with hc | hc
    · exact hpre c hc
    · exact isPlain_of_isJsonBlank hc
  · intro c hc
    rcases List.mem_append.mp (Text.mem_of_mem_dropBlankEnd hc) with hc | hc
    · exact isPlain_of_isJsonBlank (hback c hc)
    · exact hpost c hc

namespace IsWrapped

variable (h : IsWrapped (Text.trimChars text.toList) p core q ts xs)
include h

/-- The array begins on the line of the fence if that line reaches up to it. -/
theorem opensOnFenceLine_iff :
    OpensOnFenceLine text ↔ fence <+: p ∧ '\n' ∉ p ∧ '\n' ∈ core ++ q := by
  obtain ⟨mid, rfl⟩ := h.array.brackets
  unfold OpensOnFenceLine
  rw [h.parts]
  constructor
  · rintro ⟨hfence, hbreak, hbracket⟩
    have hp : '\n' ∉ p := by
      intro hmem
      obtain ⟨u, w, rfl, hu⟩ := List.eq_append_cons_of_mem hmem
      rw [List.append_assoc, List.takeWhile_append_of_pos] at hbracket
      · rw [List.cons_append, List.takeWhile_cons_of_neg (by decide), List.append_nil] at hbracket
        exact h.front _ (List.mem_append_left _ hbracket) (by decide)
      · intro c hc
        exact decide_eq_true fun heq => hu (heq ▸ hc)
    exact ⟨prefix_of_prefix_append hfence, hp, (List.mem_append.mp hbreak).resolve_left hp⟩
  · rintro ⟨hfence, hp, hbreak⟩
    refine ⟨hfence.trans (List.prefix_append p _), List.mem_append_right p hbreak, ?_⟩
    rw [List.takeWhile_append_of_pos]
    · rw [List.cons_append, List.takeWhile_cons_of_pos (by decide)]
      exact List.mem_append_right p List.mem_cons_self
    · intro c hc
      exact decide_eq_true fun heq => hp (heq ▸ hc)

/-- As long as the array is not on the line that is cut off, its value is found. -/
theorem payload?_eq_array (hvalue : value? depthLimit (.array xs) = some (.array items))
    (hopens : ¬ OpensOnFenceLine text) : payload? text = some (.array items) := by
  have hbody : ∀ r : List Char, (∀ c ∈ r, IsPlain c) →
      valueIn? (beforeFence (r ++ (core ++ q))) = some (.array items) := by
    intro r hr
    obtain ⟨mid, hmid⟩ := h.array.brackets
    obtain ⟨t, ht, hbefore⟩ := beforeFence_bracket (r ++ '[' :: mid) h.back
    have hinked : Text.StartsInked core := hmid ▸ Text.startsInked_cons (by decide) _
    have hsplit : r ++ (core ++ q) = (r ++ '[' :: mid) ++ ']' :: q := by
      rw [hmid]
      simp
    have hjoin : (r ++ '[' :: mid) ++ [']'] = r ++ core := by
      rw [hmid]
      simp
    rw [hsplit, hbefore, hjoin, Text.dropBlank_append_inked hinked, List.append_assoc]
    exact valueIn?_inProse h.array hvalue (fun c hc => hr c (Text.mem_of_mem_dropBlank hc)) ht
  rw [payload?_eq]
  by_cases hfence : fence <+: Text.trimChars text.toList
  · have hp : fence <+: p := by
      obtain ⟨mid, hmid⟩ := h.array.brackets
      rw [h.parts, hmid] at hfence
      exact prefix_of_prefix_append hfence
    obtain ⟨r, rfl⟩ := hp
    have hr : ∀ c ∈ r, IsPlain c := fun c hc => h.front c (List.mem_append_right fence hc)
    rw [h.parts, List.append_assoc, unfence_fence]
    by_cases hbreak : '\n' ∈ r
    · obtain ⟨u, w, rfl, hu⟩ := List.eq_append_cons_of_mem hbreak
      rw [List.append_assoc, List.cons_append, afterLine_append hu]
      exact hbody w fun c hc => hr c (List.mem_append_right u (List.mem_cons_of_mem _ hc))
    · have hnone : '\n' ∉ core ++ q := by
        intro hmem
        refine hopens (h.opensOnFenceLine_iff.mpr ⟨List.prefix_append fence r, ?_, hmem⟩)
        exact fun hp => (List.mem_append.mp hp).elim not_mem_fence.2.2 hbreak
      rw [afterLine_of_not_mem]
      · exact hbody r hr
      · exact fun hmem => (List.mem_append.mp hmem).elim hbreak hnone
  · rw [unfence_of_not_fence hfence, h.parts]
    exact valueIn?_inProse h.array hvalue h.front h.back

/-- With the beginning of the array its value is lost. -/
theorem findings_ne_ok (hopens : OpensOnFenceLine text) (fs : List Finding) :
    findings text ≠ .ok fs := by
  obtain ⟨hfence, hp, hbreak⟩ := h.opensOnFenceLine_iff.mp hopens
  obtain ⟨r, rfl⟩ := hfence
  have hr : '\n' ∉ r := fun hmem => hp (List.mem_append_right fence hmem)
  have hpayload : payload? text = valueIn? (beforeFence (afterLine (r ++ (core ++ q)))) := by
    rw [payload?_eq, h.parts, List.append_assoc, unfence_fence]
  by_cases hcore : '\n' ∈ core
  -- the line ends in the array
  · obtain ⟨c₁, c₂, hsplit, hc₁⟩ := List.eq_append_cons_of_mem hcore
    obtain ⟨t, rfl⟩ := h.array.exists_concat hsplit (by decide)
    obtain ⟨s, hs, hbefore⟩ := beforeFence_bracket t h.back
    have hafter : afterLine (r ++ (core ++ q)) = t ++ ']' :: q := by
      have hline : r ++ (core ++ q) = (r ++ c₁) ++ '\n' :: (t ++ ']' :: q) := by
        rw [hsplit]
        simp
      rw [hline, afterLine_append]
      exact fun hmem => (List.mem_append.mp hmem).elim hr hc₁
    rw [hafter, hbefore, valueIn?_rest h.array hsplit hs] at hpayload
    unfold findings elements
    rw [hpayload]
    exact nofun
  -- the line ends behind the array
  · have hq : '\n' ∈ q := (List.mem_append.mp hbreak).resolve_left hcore
    obtain ⟨u, w, rfl, hu⟩ := List.eq_append_cons_of_mem hq
    have hafter : afterLine (r ++ (core ++ (u ++ '\n' :: w))) = w := by
      have hline : r ++ (core ++ (u ++ '\n' :: w)) = (r ++ (core ++ u)) ++ '\n' :: w := by simp
      rw [hline, afterLine_append]
      intro hmem
      rcases List.mem_append.mp hmem with hmem | hmem
      · exact hr hmem
      · exact (List.mem_append.mp hmem).elim hcore hu
    rw [hafter] at hpayload
    refine findings_ne_ok_of_plain ?_ hpayload fs
    intro c hc
    exact h.back c (List.mem_append_right u
      (List.mem_cons_of_mem _ (mem_of_mem_beforeFence hc)))

end IsWrapped

/-- An array in prose yields its findings, unless it begins on the line of a fence that has
another line after it. -/
theorem findings_inProse_iff (harray : valueOf? array.toList = some (.array items))
    (hpre : IsProse pre) (hpost : IsProse post) :
    findings array = .ok (elementFindings items) ∧
      (findings (pre ++ array ++ post) = findings array ↔
        ¬ OpensOnFenceLine (pre ++ array ++ post)) := by
  obtain ⟨s, hs, hvalue⟩ := Option.bind_eq_some_iff.mp harray
  obtain ⟨xs, rfl⟩ := array_of_value? hvalue
  obtain ⟨p, core, q, ts, hwrapped, -⟩ := isWrapped_of_prose hs hpre hpost
  have halone : findings array = .ok (elementFindings items) := by
    have hnothing : IsProse "" := by
      intro c hc
      cases hc
    obtain ⟨p, core, q, ts, hbare, hblank⟩ := isWrapped_of_prose hs hnothing hnothing
    rw [String.empty_append, String.append_empty] at hbare
    refine findings_of_array (hbare.payload?_eq_array hvalue ?_)
    -- before the array there are blanks at most, and no fence
    intro hopens
    obtain ⟨r, rfl⟩ := (hbare.opensOnFenceLine_iff.mp hopens).1
    obtain ⟨c, rest, hfence, hinked⟩ : ∃ c rest, fence = c :: rest ∧ isJsonBlank c = false :=
      ⟨_, _, rfl, by decide⟩
    have hc : c ∈ fence := hfence ▸ List.mem_cons_self
    rcases hblank c (List.mem_append_left r hc) with hmem | hmem
    · cases hmem
    · rw [hinked] at hmem
      cases hmem
  refine ⟨halone, ?_⟩
  rw [halone]
  constructor
  · intro heq hopens
    exact hwrapped.findings_ne_ok hopens _ heq
  · intro hopens
    exact findings_of_array (hwrapped.payload?_eq_array hvalue hopens)

/-- The text of an array with one record in it. -/
def oneRecord : String := "[\x7b\"title\":\"t\",\"message\":\"m\"\x7d]"

/-- The one record of it as a value. -/
def oneRecordValue : Json := .object [("message", .string "m"), ("title", .string "t")]

/-- A fence with a line of its own, behind a line of prose. -/
theorem findings_inProse_ownLine :
    valueOf? oneRecord.toList = some (.array [oneRecordValue]) ∧
      IsProse "Here you go:\n```json\n" ∧ IsProse "\n```\n" ∧
      findings ("Here you go:\n```json\n" ++ oneRecord ++ "\n```\n") =
        findings oneRecord := by
  have hvalue : valueOf? oneRecord.toList = some (.array [oneRecordValue]) := by cbv
  have hpre : IsProse "Here you go:\n```json\n" := by decide
  have hpost : IsProse "\n```\n" := by decide
  exact ⟨hvalue, hpre, hpost, (findings_inProse_iff hvalue hpre hpost).2.mpr (by decide)⟩

/-- The findings of an array on the line of a fence are lost when the fence is closed on a line
of its own. -/
theorem findings_ne_sameLine :
    valueOf? oneRecord.toList = some (.array [oneRecordValue]) ∧
      IsProse "```" ∧ IsProse "\n```" ∧
      findings ("```" ++ oneRecord ++ "\n```") ≠ findings oneRecord := by
  refine ⟨by cbv, by decide, by decide, ?_⟩
  have hlost : findings ("```" ++ oneRecord ++ "\n```") =
      .error (.malformed "no JSON array in model output (36 bytes)") := by cbv
  have hfound : findings oneRecord = .ok (elementFindings [oneRecordValue]) :=
    findings_of_array (by cbv)
  rw [hlost, hfound]
  intro heq
  cases heq

end SmellWatch.ModelAnswer
