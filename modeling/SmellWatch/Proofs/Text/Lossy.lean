import SmellWatch.Proofs.Text.Utf8
/-! What bytes are read as that are not all UTF-8.

Where bytes begin with those of a character they are read as the character.  Where they do not, the
longest beginning of a character at their front is replaced, or the first byte if there is none
(`IsBroken`), and reading goes on behind it (`Reads`).  The decoder takes a byte at a time and does
not look ahead.  It still reads bytes in this way, because what it holds of an unfinished character
can always be completed (`Unfinished.begins`), and because it gives it up at the first byte with
which no character goes on (`Unfinished.isBroken`).  There is one way only to read bytes, so
`toList_decodeLossy_eq_iff` says what `decodeLossy` is. -/

namespace SmellWatch

namespace Text

variable {bytes part rest more : List UInt8} {g : Begun} {b : UInt8} {c : Char} {cs ds : List Char}

/-! ## How bytes are read -/

/-- The bytes of some character begin with these. -/
def Begins (bytes : List UInt8) : Prop := ∃ c : Char, bytes <+: String.utf8EncodeChar c

/-- No character is at the front of the bytes, and of them the longest beginning of a character, or
else the first byte, is in front of the rest. -/
structure IsBroken (part rest : List UInt8) : Prop where
  nonempty : part ≠ []
  noChar : ∀ c : Char, ¬ String.utf8EncodeChar c <+: part ++ rest
  unit : part.length = 1 ∨ Begins part
  longest : ∀ more, more <+: part ++ rest → Begins more → more.length ≤ part.length

/-- The characters that bytes are read as. -/
inductive Reads : List UInt8 → List Char → Prop
  | done : Reads [] []
  | char {c : Char} {bytes : List UInt8} {cs : List Char} :
      Reads bytes cs → Reads (String.utf8EncodeChar c ++ bytes) (c :: cs)
  | broken {part rest : List UInt8} {cs : List Char} :
      IsBroken part rest → Reads rest cs → Reads (part ++ rest) (Decoder.replacement :: cs)

/-! ## Bytes of characters -/

theorem toNat_charOfNat {n : Nat} (h : n < 0xD800 ∨ 0xDFFF < n ∧ n < 0x110000) :
    (Char.ofNat n).toNat = n := by
  unfold Char.ofNat
  rw [dif_pos h]
  rfl

theorem ofNat_eq {n : Nat} (h : n = b.toNat) : UInt8.ofNat n = b := by
  rw [h, UInt8.ofNat_toNat]

theorem encode_one {a : UInt8} (ha : a.toNat < 0x80) :
    String.utf8EncodeChar (Char.ofNat a.toNat) = [a] := by
  unfold String.utf8EncodeChar
  rw [show (Char.ofNat a.toNat).val.toNat = a.toNat from toNat_charOfNat (by omega)]
  dsimp only
  rw [if_pos (by omega), UInt8.ofNat_toNat]

theorem encode_two {a b : UInt8} (ha : 0xC2 ≤ a.toNat) (ha' : a.toNat ≤ 0xDF)
    (hb : 0x80 ≤ b.toNat) (hb' : b.toNat ≤ 0xBF) :
    String.utf8EncodeChar (Char.ofNat ((a.toNat - 0xC0) * 64 + (b.toNat - 0x80))) = [a, b] := by
  unfold String.utf8EncodeChar
  rw [show (Char.ofNat _).val.toNat = _ from toNat_charOfNat (by omega)]
  dsimp only
  rw [if_neg (by omega), if_pos (by omega), ofNat_eq (b := a) (by omega),
    ofNat_eq (b := b) (by omega)]

theorem encode_three {a b c : UInt8} (ha : 0xE0 ≤ a.toNat) (ha' : a.toNat ≤ 0xEF)
    (hb : (if a.toNat = 0xE0 then 0xA0 else 0x80) ≤ b.toNat)
    (hb' : b.toNat ≤ if a.toNat = 0xED then 0x9F else 0xBF)
    (hc : 0x80 ≤ c.toNat) (hc' : c.toNat ≤ 0xBF) :
    String.utf8EncodeChar (Char.ofNat
      (((a.toNat - 0xE0) * 64 + (b.toNat - 0x80)) * 64 + (c.toNat - 0x80))) = [a, b, c] := by
  have hleast : 0x80 ≤ b.toNat := by split at hb <;> omega
  have hgreatest : b.toNat ≤ 0xBF := by split at hb' <;> omega
  have hlong : a.toNat = 0xE0 → 0xA0 ≤ b.toNat := fun h => by rwa [if_pos h] at hb
  have hsurrogate : a.toNat = 0xED → b.toNat ≤ 0x9F := fun h => by rwa [if_pos h] at hb'
  unfold String.utf8EncodeChar
  rw [show (Char.ofNat _).val.toNat = _ from toNat_charOfNat (by omega)]
  dsimp only
  rw [if_neg (by omega), if_neg (by omega), if_pos (by omega), ofNat_eq (b := a) (by omega),
    ofNat_eq (b := b) (by omega), ofNat_eq (b := c) (by omega)]

theorem encode_four {a b c d : UInt8} (ha : 0xF0 ≤ a.toNat) (ha' : a.toNat ≤ 0xF4)
    (hb : (if a.toNat = 0xF0 then 0x90 else 0x80) ≤ b.toNat)
    (hb' : b.toNat ≤ if a.toNat = 0xF4 then 0x8F else 0xBF)
    (hc : 0x80 ≤ c.toNat) (hc' : c.toNat ≤ 0xBF) (hd : 0x80 ≤ d.toNat) (hd' : d.toNat ≤ 0xBF) :
    String.utf8EncodeChar (Char.ofNat
      ((((a.toNat - 0xF0) * 64 + (b.toNat - 0x80)) * 64 + (c.toNat - 0x80)) * 64 +
        (d.toNat - 0x80))) = [a, b, c, d] := by
  have hleast : 0x80 ≤ b.toNat := by split at hb <;> omega
  have hgreatest : b.toNat ≤ 0xBF := by split at hb' <;> omega
  have hlong : a.toNat = 0xF0 → 0x90 ≤ b.toNat := fun h => by rwa [if_pos h] at hb
  have hlast : a.toNat = 0xF4 → b.toNat ≤ 0x8F := fun h => by rwa [if_pos h] at hb'
  unfold String.utf8EncodeChar
  rw [show (Char.ofNat _).val.toNat = _ from toNat_charOfNat (by omega)]
  dsimp only
  rw [if_neg (by omega), if_neg (by omega), if_neg (by omega), ofNat_eq (b := a) (by omega),
    ofNat_eq (b := b) (by omega), ofNat_eq (b := c) (by omega), ofNat_eq (b := d) (by omega)]

/-! ## Unfinished characters -/

theorem Decoder.feedAll_singleton (d : Decoder) (b : UInt8) : d.feedAll [b] = d.feed b := rfl

/-- The bytes of an unfinished character, with what the decoder holds of them. -/
inductive Unfinished : List UInt8 → Begun → Prop
  | two {a : UInt8} : 0xC2 ≤ a.toNat → a.toNat ≤ 0xDF →
      Unfinished [a] ⟨a.toNat - 0xC0, 1, 0x80, 0xBF⟩
  | three {a : UInt8} : 0xE0 ≤ a.toNat → a.toNat ≤ 0xEF →
      Unfinished [a] ⟨a.toNat - 0xE0, 2, if a.toNat = 0xE0 then 0xA0 else 0x80,
        if a.toNat = 0xED then 0x9F else 0xBF⟩
  | four {a : UInt8} : 0xF0 ≤ a.toNat → a.toNat ≤ 0xF4 →
      Unfinished [a] ⟨a.toNat - 0xF0, 3, if a.toNat = 0xF0 then 0x90 else 0x80,
        if a.toNat = 0xF4 then 0x8F else 0xBF⟩
  | next {part : List UInt8} {b : UInt8} {g : Begun} :
      Unfinished part g → 2 ≤ g.missing → g.least ≤ b.toNat → b.toNat ≤ g.greatest →
      Unfinished (part ++ [b]) ⟨g.value * 64 + (b.toNat - 0x80), g.missing - 1, 0x80, 0xBF⟩

namespace Unfinished

theorem ne_nil (h : Unfinished part g) : part ≠ [] := by
  cases h <;> simp

theorem missing_pos (h : Unfinished part g) : 0 < g.missing := by
  cases h <;> dsimp only <;> omega

theorem missing_le (h : Unfinished part g) : g.missing ≤ 3 := by
  induction h <;> dsimp only <;> omega

/-- Some byte may come next. -/
theorem exists_next (h : Unfinished part g) :
    ∃ b : UInt8, g.least ≤ b.toNat ∧ b.toNat ≤ g.greatest := by
  refine ⟨UInt8.ofNat g.least, ?_⟩
  have hbounds : g.least ≤ g.greatest ∧ g.least < 256 := by
    cases h with
    | two | next => dsimp only; omega
    | three | four => dsimp only; split <;> split <;> omega
  rw [Decoder.toNat_ofNat hbounds.2]
  exact ⟨Nat.le_refl _, hbounds.1⟩

/-- The byte that is the last one missing completes the bytes of a character. -/
theorem complete (h : Unfinished part g) (hlast : g.missing = 1) (hb : g.least ≤ b.toNat)
    (hb' : b.toNat ≤ g.greatest) :
    part ++ [b] = String.utf8EncodeChar (Char.ofNat (g.value * 64 + (b.toNat - 0x80))) := by
  cases h with
  | two ha ha' =>
    rw [encode_two ha ha' hb hb']
    rfl
  | three | four => cases hlast
  | next h hmore hc hc' =>
    cases h with
    | two => cases hlast
    | three ha ha' =>
      rw [encode_three ha ha' hc hc' hb hb']
      rfl
    | four => cases hlast
    | next h hmore' hd hd' =>
      cases h with
      | two | three => cases hlast
      | four ha ha' =>
        rw [encode_four ha ha' hd hd' hc hc' hb hb']
        rfl
      | next h =>
        have := h.missing_le
        dsimp only at hlast
        omega

/-- An unfinished character can be completed: the bytes missing are added one by one. -/
theorem begins (h : Unfinished part g) : Begins part := by
  induction hmissing : g.missing generalizing part g with
  | zero => exact absurd h.missing_pos (by omega)
  | succ n ih =>
    obtain ⟨b, hb, hb'⟩ := h.exists_next
    by_cases hlast : g.missing = 1
    · exact ⟨_, [b], h.complete hlast hb hb'⟩
    · obtain ⟨c, hc⟩ := ih (h.next (by omega) hb hb') (by dsimp only; omega)
      exact ⟨c, (List.prefix_append part [b]).trans hc⟩

/-- The decoder holds an unfinished character. -/
theorem feedAll (h : Unfinished part g) {d : Decoder} (hd : d.begun = none) :
    d.feedAll part = ⟨d.read, some g, d.replaced⟩ := by
  induction h with
  | @two a ha ha' =>
    rw [Decoder.feedAll_singleton]
    unfold Decoder.feed Decoder.lead
    rw [hd]
    dsimp only
    rw [if_neg (by omega), if_pos ⟨ha, ha'⟩]
  | @three a ha ha' =>
    rw [Decoder.feedAll_singleton]
    unfold Decoder.feed
    rw [hd]
    exact Decoder.lead_three d ha ha'
  | @four a ha ha' =>
    rw [Decoder.feedAll_singleton]
    unfold Decoder.feed
    rw [hd]
    exact Decoder.lead_four d ha ha'
  | @next part b g _ hmore hb hb' ih =>
    rw [Decoder.feedAll_append, ih, Decoder.feedAll_singleton]
    unfold Decoder.feed
    dsimp only
    rw [if_pos ⟨hb, hb'⟩, if_neg (by omega)]

end Unfinished

/-! ## What is given up -/

namespace Decoder

variable {d : Decoder}

/-- What was replaced stays so. -/
theorem replaced_feed (hd : d.replaced = true) (b : UInt8) : (d.feed b).replaced = true := by
  have hlead : ∀ (e : Decoder) (n : Nat), e.replaced = true → (e.lead n).replaced = true := by
    intro e n he
    unfold lead
    repeat' split
    all_goals first | exact he | rfl
  unfold feed
  dsimp only
  split
  · exact hlead d _ hd
  · split
    · split <;> exact hd
    · exact hlead _ _ rfl

theorem replaced_feedAll (hd : d.replaced = true) (bytes : List UInt8) :
    (d.feedAll bytes).replaced = true := by
  induction bytes generalizing d with
  | nil => exact hd
  | cons b r ih => exact ih (replaced_feed hd b)

/-- Nothing is replaced in the bytes of a character. -/
theorem not_replaced_of_isPrefix {c : Char} (h : part <+: String.utf8EncodeChar c) :
    (start.feedAll part).replaced = false := by
  obtain ⟨more, hmore⟩ := h
  cases hreplaced : (start.feedAll part).replaced with
  | false => rfl
  | true =>
    have hlater := replaced_feedAll hreplaced more
    rw [← feedAll_append, hmore, feedAll_char rfl] at hlater
    exact hlater.symm

/-- A byte that an unfinished character does not go on with is read as if a replacement stood in
front of it. -/
theorem feed_of_unfinished (h : Unfinished part g)
    (hb : ¬ (g.least ≤ b.toNat ∧ b.toNat ≤ g.greatest)) (hd : d.begun = none) :
    (d.feedAll part).feed b = feed ⟨replacement :: d.read, none, true⟩ b := by
  rw [h.feedAll hd]
  unfold feed
  dsimp only
  rw [if_neg hb]

/-- A byte with which characters begin, or none. -/
theorem lead_cases (b : UInt8) :
    b.toNat < 0x80 ∨ (∃ g, Unfinished [b] g) ∨
      ∀ d : Decoder, d.begun = none → d.feed b = ⟨replacement :: d.read, none, true⟩ := by
  by_cases hone : b.toNat < 0x80
  · exact .inl hone
  by_cases htwo : 0xC2 ≤ b.toNat ∧ b.toNat ≤ 0xDF
  · exact .inr (.inl ⟨_, .two htwo.1 htwo.2⟩)
  by_cases hthree : 0xE0 ≤ b.toNat ∧ b.toNat ≤ 0xEF
  · exact .inr (.inl ⟨_, .three hthree.1 hthree.2⟩)
  by_cases hfour : 0xF0 ≤ b.toNat ∧ b.toNat ≤ 0xF4
  · exact .inr (.inl ⟨_, .four hfour.1 hfour.2⟩)
  refine .inr (.inr fun d hd => ?_)
  unfold feed lead
  rw [hd]
  dsimp only
  rw [if_neg hone, if_neg htwo, if_neg (by omega), if_neg (by omega), if_neg (by omega),
    if_neg (by omega), if_neg (by omega), if_neg (by omega)]

end Decoder

/-! ## Reading -/

theorem encodeChar_ne_nil (c : Char) : String.utf8EncodeChar c ≠ [] := by
  apply List.ne_nil_of_length_pos
  rw [String.length_utf8EncodeChar]
  exact c.utf8Size_pos

/-- No character has the bytes of another one at its front. -/
theorem eq_of_isPrefix {d : Char} (h : String.utf8EncodeChar c <+: String.utf8EncodeChar d) :
    c = d := by
  obtain ⟨more, hmore⟩ := h
  have hfeed := Decoder.feedAll_append .start (String.utf8EncodeChar c) more
  rw [hmore, Decoder.feedAll_char rfl, Decoder.feedAll_char rfl] at hfeed
  have hsuffix := Decoder.suffix_read_feedAll
    ⟨c :: Decoder.start.read, none, Decoder.start.replaced⟩ more
  rw [← hfeed] at hsuffix
  exact List.mem_singleton.mp (hsuffix.subset (List.mem_singleton_self c))

theorem encodeChar_append_inj {d : Char}
    (h : String.utf8EncodeChar c ++ bytes = String.utf8EncodeChar d ++ rest) :
    c = d ∧ bytes = rest := by
  have hsame : c = d := by
    rcases List.prefix_or_prefix_of_prefix (List.prefix_append _ bytes)
      (h ▸ List.prefix_append _ rest) with hprefix | hprefix
    · exact eq_of_isPrefix hprefix
    · exact (eq_of_isPrefix hprefix).symm
  subst hsame
  exact ⟨rfl, List.append_cancel_left h⟩

/-- An unfinished character is completed by the bytes behind it, or there is an end of those that it
goes on with. -/
theorem Unfinished.ends (h : Unfinished part g) (rest : List UInt8) :
    (∃ c more, part ++ rest = String.utf8EncodeChar c ++ more) ∨
      ∃ part' rest' g', part ++ rest = part' ++ rest' ∧ Unfinished part' g' ∧
        ∀ b ∈ rest'.head?, ¬ (g'.least ≤ b.toNat ∧ b.toNat ≤ g'.greatest) := by
  induction rest generalizing part g with
  | nil => exact .inr ⟨part, [], g, rfl, h, nofun⟩
  | cons b r ih =>
    have hjoin : part ++ b :: r = part ++ [b] ++ r := by simp
    by_cases hb : g.least ≤ b.toNat ∧ b.toNat ≤ g.greatest
    · rw [hjoin]
      by_cases hlast : g.missing = 1
      · exact .inl ⟨_, r, congrArg (· ++ r) (h.complete hlast hb.1 hb.2)⟩
      · have := h.missing_pos
        exact ih (h.next (by omega) hb.1 hb.2)
    · refine .inr ⟨part, b :: r, g, rfl, h, fun x hx => ?_⟩
      obtain rfl : b = x := Option.some.inj hx
      exact hb

/-- In front of what it does not go on with, an unfinished character is the longest beginning. -/
theorem Unfinished.length_le (h : Unfinished part g)
    (hstop : ∀ b ∈ rest.head?, ¬ (g.least ≤ b.toNat ∧ b.toNat ≤ g.greatest))
    (hmore : more <+: part ++ rest) (hbegins : Begins more) : more.length ≤ part.length := by
  obtain ⟨c, hc⟩ := hbegins
  refine Nat.le_of_not_lt fun hlonger => ?_
  have hpart : part <+: more :=
    List.prefix_of_prefix_length_le (List.prefix_append part rest) hmore (by omega)
  obtain ⟨further, rfl⟩ := hpart
  have hrest : further <+: rest := (List.prefix_append_right_inj part).mp hmore
  cases further with
  | nil => simp at hlonger
  | cons b r =>
    obtain ⟨behind, rfl⟩ := hrest
    -- the decoder gives up at this byte, but it never does so within the bytes of a character
    have hwhole : part ++ [b] <+: String.utf8EncodeChar c := List.IsPrefix.trans ⟨r, by simp⟩ hc
    have hkept := Decoder.not_replaced_of_isPrefix hwhole
    rw [Decoder.feedAll_append, Decoder.feedAll_singleton,
      Decoder.feed_of_unfinished h (hstop b rfl) rfl, Decoder.replaced_feed rfl] at hkept
    cases hkept

/-- An unfinished character in front of what it does not go on with is replaced as one. -/
theorem Unfinished.isBroken (h : Unfinished part g)
    (hstop : ∀ b ∈ rest.head?, ¬ (g.least ≤ b.toNat ∧ b.toNat ≤ g.greatest)) :
    IsBroken part rest := by
  refine ⟨h.ne_nil, fun c hc => ?_, .inr h.begins, fun _ => h.length_le hstop⟩
  have hinside : String.utf8EncodeChar c <+: part :=
    List.prefix_of_prefix_length_le hc (List.prefix_append part rest)
      (h.length_le hstop hc ⟨c, List.prefix_rfl⟩)
  obtain ⟨more, rfl⟩ := hinside
  have hread := Decoder.suffix_read_feedAll (Decoder.start.feedAll (String.utf8EncodeChar c)) more
  rw [← Decoder.feedAll_append, h.feedAll rfl, Decoder.feedAll_char rfl] at hread
  simp [Decoder.start] at hread

/-- A byte with which no character begins is replaced. -/
theorem isBroken_of_stray (h : (Decoder.start.feed b).replaced = true) (rest : List UInt8) :
    IsBroken [b] rest := by
  have hnone : ∀ more : List UInt8, more ≠ [] → more <+: [b] ++ rest → ¬ Begins more := by
    rintro more hne hmore ⟨c, hc⟩
    obtain ⟨a, r, rfl⟩ := List.exists_cons_of_ne_nil hne
    obtain ⟨rfl, -⟩ := List.cons_prefix_cons.mp hmore
    have hkept := Decoder.not_replaced_of_isPrefix (List.IsPrefix.trans ⟨r, rfl⟩ hc : [a] <+: _)
    rw [Decoder.feedAll_singleton, h] at hkept
    cases hkept
  refine ⟨List.cons_ne_nil _ _, fun c hc => ?_, .inl rfl, fun more hmore hbegins => ?_⟩
  · exact hnone _ (encodeChar_ne_nil c) hc ⟨c, List.prefix_rfl⟩
  · by_cases hne : more = []
    · simp [hne]
    · exact absurd hbegins (hnone more hne hmore)

/-- At the front of some bytes is a character, or a part of them that the decoder replaces. -/
theorem front_cases (hne : bytes ≠ []) :
    (∃ c rest, bytes = String.utf8EncodeChar c ++ rest) ∨
      ∃ part rest, bytes = part ++ rest ∧ IsBroken part rest ∧ ∀ d : Decoder, d.begun = none →
        (d.feedAll bytes).finish =
          (Decoder.feedAll ⟨Decoder.replacement :: d.read, none, true⟩ rest).finish := by
  obtain ⟨b, r, rfl⟩ := List.exists_cons_of_ne_nil hne
  rcases Decoder.lead_cases b with hone | ⟨g, hg⟩ | hstray
  · exact .inl ⟨Char.ofNat b.toNat, r, by rw [encode_one hone]; rfl⟩
  · rcases hg.ends r with hchar | ⟨part, rest, g', hsplit, hpart, hstop⟩
    · exact .inl hchar
    · refine .inr ⟨part, rest, hsplit, hpart.isBroken hstop, fun d hd => ?_⟩
      rw [show b :: r = part ++ rest from hsplit, Decoder.feedAll_append]
      cases rest with
      | nil =>
        rw [hpart.feedAll hd]
        rfl
      | cons x rest =>
        have hgiven := Decoder.feed_of_unfinished hpart (hstop x rfl) hd
        show (Decoder.feedAll ((d.feedAll part).feed x) rest).finish = _
        rw [hgiven]
        rfl
  · refine .inr ⟨[b], r, rfl, isBroken_of_stray ?_ r, fun d hd => ?_⟩
    · rw [hstray .start rfl]
    · show (Decoder.feedAll (d.feed b) r).finish = _
      rw [hstray d hd]

/-- The decoder reads bytes, by induction on how many they are. -/
theorem reads_feedAll (bytes : List UInt8) (d : Decoder) (hd : d.begun = none) :
    ∃ cs, Reads bytes cs ∧ (d.feedAll bytes).finish.read = cs.reverse ++ d.read := by
  induction hlength : bytes.length using Nat.strongRecOn generalizing bytes d with
  | ind n ih =>
    subst hlength
    by_cases hne : bytes = []
    · subst hne
      refine ⟨[], .done, ?_⟩
      show d.finish.read = _
      unfold Decoder.finish
      rw [hd]
      rfl
    rcases front_cases hne with ⟨c, rest, rfl⟩ | ⟨part, rest, rfl, hbroken, hfeed⟩
    · have hshort : rest.length < (String.utf8EncodeChar c ++ rest).length := by
        have := List.length_pos_iff.mpr (encodeChar_ne_nil c)
        simp only [List.length_append]
        omega
      obtain ⟨cs, hcs, hread⟩ := ih _ hshort rest ⟨c :: d.read, none, d.replaced⟩ rfl rfl
      refine ⟨c :: cs, hcs.char, ?_⟩
      rw [Decoder.feedAll_append, Decoder.feedAll_char hd, hread]
      simp
    · have hshort : rest.length < (part ++ rest).length := by
        have := List.length_pos_iff.mpr hbroken.nonempty
        simp only [List.length_append]
        omega
      obtain ⟨cs, hcs, hread⟩ :=
        ih _ hshort rest ⟨Decoder.replacement :: d.read, none, true⟩ rfl rfl
      refine ⟨Decoder.replacement :: cs, hcs.broken hbroken, ?_⟩
      rw [hfeed d hd, hread]
      simp

theorem Reads.inv (h : Reads bytes cs) :
    (bytes = [] ∧ cs = []) ∨
    (∃ c rest ds, bytes = String.utf8EncodeChar c ++ rest ∧ cs = c :: ds ∧ Reads rest ds) ∨
    ∃ part rest ds, bytes = part ++ rest ∧ cs = Decoder.replacement :: ds ∧ IsBroken part rest ∧
      Reads rest ds := by
  cases h with
  | done => exact .inl ⟨rfl, rfl⟩
  | char h => exact .inr (.inl ⟨_, _, _, rfl, rfl, h⟩)
  | broken hbroken h => exact .inr (.inr ⟨_, _, _, rfl, rfl, hbroken, h⟩)

theorem IsBroken.length_le {part' rest' : List UInt8} (h : IsBroken part rest)
    (h' : IsBroken part' rest') (hsame : part ++ rest = part' ++ rest') :
    part.length ≤ part'.length := by
  rcases h.unit with hone | hbegins
  · rw [hone]
    exact List.length_pos_iff.mpr h'.nonempty
  · exact h'.longest part (hsame ▸ List.prefix_append part rest) hbegins

/-- There is one way to read bytes. -/
theorem Reads.unique (h : Reads bytes cs) (h' : Reads bytes ds) : cs = ds := by
  induction h generalizing ds with
  | done =>
    rcases h'.inv with ⟨-, rfl⟩ | ⟨c, rest, es, hsplit, -⟩ | ⟨part, rest, es, hsplit, -, hbroken, -⟩
    · rfl
    · exact absurd (List.append_eq_nil_iff.mp hsplit.symm).1 (encodeChar_ne_nil c)
    · exact absurd (List.append_eq_nil_iff.mp hsplit.symm).1 hbroken.nonempty
  | @char c bytes cs _ ih =>
    rcases h'.inv with ⟨hnil, -⟩ | ⟨d, rest, es, hsplit, rfl, hes⟩ |
      ⟨part, rest, es, hsplit, -, hbroken, -⟩
    · exact absurd (List.append_eq_nil_iff.mp hnil).1 (encodeChar_ne_nil c)
    · obtain ⟨rfl, rfl⟩ := encodeChar_append_inj hsplit
      rw [ih hes]
    · exact absurd (hsplit ▸ List.prefix_append _ bytes) (hbroken.noChar c)
  | @broken part rest cs hbroken _ ih =>
    rcases h'.inv with ⟨hnil, -⟩ | ⟨d, other, es, hsplit, -, -⟩ |
      ⟨part', rest', es, hsplit, rfl, hbroken', hes⟩
    · exact absurd (List.append_eq_nil_iff.mp hnil).1 hbroken.nonempty
    · exact absurd (hsplit ▸ List.prefix_append _ other) (hbroken.noChar d)
    · have hlength : part.length = part'.length :=
        Nat.le_antisymm (hbroken.length_le hbroken' hsplit) (hbroken'.length_le hbroken hsplit.symm)
      obtain ⟨rfl, rfl⟩ := List.append_inj hsplit hlength
      rw [ih hes]

/-- What `decodeLossy` makes of bytes is what they are read as. -/
theorem toList_decodeLossy_eq_iff : (decodeLossy bytes).toList = cs ↔ Reads bytes cs := by
  obtain ⟨ds, hds, hread⟩ := reads_feedAll bytes .start rfl
  have hlossy : (decodeLossy bytes).toList = ds := by
    unfold decodeLossy Decoder.text
    rw [hread]
    simp [Decoder.start]
  rw [hlossy]
  constructor
  · rintro rfl
    exact hds
  · exact hds.unique

end Text

end SmellWatch
