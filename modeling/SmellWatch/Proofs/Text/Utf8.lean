import SmellWatch.Text.Utf8
/-! The bytes of a text, read back.

The bytes of a text are those of its characters, one after the other (`encode_eq_flatMap`), and
the decoder gets each character from its bytes (`Decoder.feedAll_char`).  So the bytes of a text
are read as the text (`decode?_encode`), and texts with the same bytes are the same
(`eq_of_encode`). -/

namespace SmellWatch

namespace Text

variable {s t : String}

/-! ## Bytes -/

theorem toList_loop (bytes : ByteArray) (i : Nat) (done : List UInt8) :
    ByteArray.toList.loop bytes i done = done.reverse ++ bytes.data.toList.drop i := by
  induction hleft : bytes.size - i generalizing i done with
  | zero =>
    unfold ByteArray.toList.loop
    have hsize : bytes.data.toList.length ≤ i := by
      rw [Array.length_toList]
      exact Nat.sub_eq_zero_iff_le.mp hleft
    rw [if_neg (Nat.not_lt.mpr (Nat.sub_eq_zero_iff_le.mp hleft)), List.drop_eq_nil_of_le hsize,
      List.append_nil]
  | succ left ih =>
    have hlt : i < bytes.size := by omega
    have hindex : i < bytes.data.toList.length := by
      rw [Array.length_toList]
      exact hlt
    unfold ByteArray.toList.loop
    have hget : bytes.get! i = bytes.data.toList[i] := getElem!_pos bytes.data i hlt
    rw [if_pos hlt, ih (i + 1) _ (by omega), List.reverse_cons, List.append_assoc,
      List.singleton_append, List.drop_eq_getElem_cons hindex, hget]

theorem encode_eq_toList_data (s : String) : encode s = s.toByteArray.data.toList := by
  unfold encode ByteArray.toList
  rw [toList_loop]
  rfl

/-- The bytes of a text are those of its characters. -/
theorem encode_eq_flatMap (s : String) : encode s = s.toList.flatMap String.utf8EncodeChar := by
  rw [encode_eq_toList_data]
  have hs : s = String.ofList s.toList := String.ofList_toList.symm
  conv => lhs; rw [hs]
  rw [String.toByteArray_ofList, List.utf8Encode, List.toList_data_toByteArray]

theorem encode_append (s t : String) : encode (s ++ t) = encode s ++ encode t := by
  rw [encode_eq_flatMap, encode_eq_flatMap, encode_eq_flatMap, String.toList_append,
    List.flatMap_append]

theorem length_encode (s : String) : (encode s).length = s.utf8ByteSize := by
  rw [encode_eq_toList_data, Array.length_toList]
  rfl

/-- Texts with the same bytes are the same. -/
theorem eq_of_encode (h : encode s = encode t) : s = t := by
  rw [encode_eq_toList_data, encode_eq_toList_data] at h
  exact String.toByteArray_inj.mp (ByteArray.ext (Array.toList_inj.mp h))

/-- A byte below 128 stands for the character of this number. -/
theorem toNat_of_mem_utf8EncodeChar {c : Char} {n : Nat} (hn : n < 128)
    (h : UInt8.ofNat n ∈ String.utf8EncodeChar c) : c.toNat = n := by
  have hsame : ∀ m, m < 256 → UInt8.ofNat n = UInt8.ofNat m → m = n := by
    intro m hm heq
    have hmod := congrArg UInt8.toNat heq
    rw [UInt8.toNat_ofNat', UInt8.toNat_ofNat'] at hmod
    omega
  have hother : ∀ m, 128 ≤ m → m < 256 → UInt8.ofNat n ≠ UInt8.ofNat m := by
    intro m hleast hm heq
    have := hsame m hm heq
    omega
  unfold String.utf8EncodeChar at h
  rw [show c.val.toNat = c.toNat from rfl] at h
  dsimp only at h
  split at h
  · exact hsame _ (by omega) (List.mem_singleton.mp h)
  · exfalso
    split at h
    · simp only [List.mem_cons, List.not_mem_nil, or_false] at h
      rcases h with h | h <;> exact hother _ (by omega) (by omega) h
    · split at h
      · simp only [List.mem_cons, List.not_mem_nil, or_false] at h
        rcases h with h | h | h <;> exact hother _ (by omega) (by omega) h
      · simp only [List.mem_cons, List.not_mem_nil, or_false] at h
        rcases h with h | h | h | h <;> exact hother _ (by omega) (by omega) h

/-- The byte of a line end stands for a line end only. -/
theorem not_mem_encode (h : '\n' ∉ s.toList) : 10 ∉ encode s := by
  rw [encode_eq_flatMap]
  intro hin
  obtain ⟨c, hc, hbyte⟩ := List.mem_flatMap.mp hin
  have hline : c = '\n' := Char.toNat_inj.mp (toNat_of_mem_utf8EncodeChar (by decide) hbyte)
  exact h (hline ▸ hc)

/-! ## Characters -/

namespace Decoder

variable {d : Decoder} {n value missing least greatest : Nat}

theorem toNat_ofNat (h : n < 256) : (UInt8.ofNat n).toNat = n := by
  rw [UInt8.toNat_ofNat']
  exact Nat.mod_eq_of_lt h

/-- A byte between two characters. -/
theorem feed_lead (hd : d.begun = none) (h : n < 256) : d.feed (UInt8.ofNat n) = d.lead n := by
  unfold feed
  rw [hd, toNat_ofNat h]

/-- The first of three bytes; the least and the greatest of them leave fewer characters. -/
theorem lead_three (d : Decoder) (hleast : 0xE0 ≤ n) (hgreatest : n ≤ 0xEF) :
    d.lead n = ⟨d.read, some ⟨n - 0xE0, 2, if n = 0xE0 then 0xA0 else 0x80,
      if n = 0xED then 0x9F else 0xBF⟩, d.replaced⟩ := by
  unfold lead
  rw [if_neg (by omega), if_neg (by omega)]
  by_cases hfirst : n = 0xE0
  · subst hfirst
    rfl
  by_cases hlast : n = 0xED
  · subst hlast
    rfl
  rw [if_neg hfirst, if_neg hlast, if_pos ⟨by omega, hgreatest⟩, if_neg hfirst, if_neg hlast]

/-- The first of four bytes. -/
theorem lead_four (d : Decoder) (hleast : 0xF0 ≤ n) (hgreatest : n ≤ 0xF4) :
    d.lead n = ⟨d.read, some ⟨n - 0xF0, 3, if n = 0xF0 then 0x90 else 0x80,
      if n = 0xF4 then 0x8F else 0xBF⟩, d.replaced⟩ := by
  unfold lead
  rw [if_neg (by omega), if_neg (by omega), if_neg (by omega), if_neg (by omega),
    if_neg (by omega)]
  by_cases hfirst : n = 0xF0
  · subst hfirst
    rfl
  by_cases hlast : n = 0xF4
  · subst hlast
    rfl
  rw [if_neg hfirst, if_pos ⟨by omega, by omega⟩, if_neg hfirst, if_neg hlast]

/-- A byte within a character. -/
theorem feed_inner (read : List Char) (replaced : Bool) (hleast : least ≤ n)
    (hgreatest : n ≤ greatest) (h : n < 256) :
    feed ⟨read, some ⟨value, missing + 2, least, greatest⟩, replaced⟩ (UInt8.ofNat n) =
      ⟨read, some ⟨value * 64 + (n - 0x80), missing + 1, 0x80, 0xBF⟩, replaced⟩ := by
  unfold feed
  rw [toNat_ofNat h]
  dsimp only
  rw [if_pos ⟨hleast, hgreatest⟩, if_neg (by omega)]
  rfl

/-- The last byte of a character. -/
theorem feed_last (read : List Char) (replaced : Bool) (hleast : least ≤ n)
    (hgreatest : n ≤ greatest) (h : n < 256) :
    feed ⟨read, some ⟨value, 1, least, greatest⟩, replaced⟩ (UInt8.ofNat n) =
      ⟨Char.ofNat (value * 64 + (n - 0x80)) :: read, none, replaced⟩ := by
  unfold feed
  rw [toNat_ofNat h]
  exact if_pos ⟨hleast, hgreatest⟩

/-- The bytes of a character are read as the character. -/
theorem feedAll_char (hd : d.begun = none) (c : Char) :
    d.feedAll (String.utf8EncodeChar c) = ⟨c :: d.read, none, d.replaced⟩ := by
  have hvalid : c.toNat < 0xD800 ∨ 0xDFFF < c.toNat ∧ c.toNat < 0x110000 := c.valid
  have hchar : ∀ n, n = c.toNat → Char.ofNat n = c := fun n hn => by rw [hn, Char.ofNat_toNat]
  unfold feedAll String.utf8EncodeChar
  rw [show c.val.toNat = c.toNat from rfl]
  generalize c.toNat = v at *
  dsimp only
  split
  · -- one byte
    rw [List.foldl_cons, feed_lead hd (by omega), lead, if_pos (by omega), hchar v rfl]
    rfl
  split
  · -- two bytes
    rw [List.foldl_cons, List.foldl_cons, feed_lead hd (by omega), lead, if_neg (by omega),
      if_pos (by omega), feed_last _ _ (by omega) (by omega) (by omega), hchar _ (by omega)]
    rfl
  split
  · -- three bytes
    rw [List.foldl_cons, List.foldl_cons, List.foldl_cons, feed_lead hd (by omega),
      lead_three d (by omega) (by omega),
      feed_inner _ _ (by split <;> omega) (by split <;> omega) (by omega),
      feed_last _ _ (by omega) (by omega) (by omega), hchar _ (by omega)]
    rfl
  · -- four bytes
    rw [List.foldl_cons, List.foldl_cons, List.foldl_cons, List.foldl_cons,
      feed_lead hd (by omega), lead_four d (by omega) (by omega),
      feed_inner _ _ (by split <;> omega) (by split <;> omega) (by omega),
      feed_inner _ _ (by omega) (by omega) (by omega),
      feed_last _ _ (by omega) (by omega) (by omega), hchar _ (by omega)]
    rfl

theorem feedAll_chars (hd : d.begun = none) (cs : List Char) :
    d.feedAll (cs.flatMap String.utf8EncodeChar) = ⟨cs.reverse ++ d.read, none, d.replaced⟩ := by
  induction cs generalizing d with
  | nil =>
    rw [← hd]
    rfl
  | cons c r ih =>
    rw [List.flatMap_cons, feedAll_append, feedAll_char hd, ih rfl, List.reverse_cons,
      List.append_assoc]
    rfl

/-- What was read stays. -/
theorem suffix_read_feed (d : Decoder) (byte : UInt8) : d.read <:+ (d.feed byte).read := by
  have hlead : ∀ (e : Decoder) (n : Nat), e.read <:+ (e.lead n).read := by
    intro e n
    unfold lead
    repeat' split
    all_goals first | exact List.suffix_refl _ | exact List.suffix_cons _ _
  unfold feed
  dsimp only
  split
  · exact hlead d _
  · split
    · split
      · exact List.suffix_cons _ _
      · exact List.suffix_refl _
    · exact (List.suffix_cons _ _).trans (hlead ⟨replacement :: d.read, none, true⟩ _)

theorem suffix_read_feedAll (d : Decoder) (bytes : List UInt8) :
    d.read <:+ (d.feedAll bytes).read := by
  induction bytes generalizing d with
  | nil => exact List.suffix_refl _
  | cons b r ih => exact (suffix_read_feed d b).trans (ih _)

theorem suffix_read_finish (d : Decoder) : d.read <:+ d.finish.read := by
  unfold finish
  split
  · exact List.suffix_refl _
  · exact List.suffix_cons _ _

end Decoder

theorem feedAll_encode (s : String) :
    Decoder.start.feedAll (encode s) = ⟨s.toList.reverse, none, false⟩ := by
  rw [encode_eq_flatMap, Decoder.feedAll_chars rfl]
  exact congrArg (Decoder.mk · none false) (List.append_nil _)

/-- The bytes of a text are read as the text. -/
theorem decode?_encode (s : String) : decode? (encode s) = some s := by
  unfold decode?
  rw [feedAll_encode]
  show some (String.ofList s.toList.reverse.reverse) = some s
  rw [List.reverse_reverse, String.ofList_toList]

/-- The text at the front of some bytes is at the front of what they are read as. -/
theorem prefix_of_decode? {bytes : List UInt8} (h : decode? (encode s ++ bytes) = some t) :
    s.toList <+: t.toList := by
  unfold decode? at h
  rw [Decoder.feedAll_append, feedAll_encode] at h
  dsimp only at h
  split at h
  · cases h
  · cases h
    have hsuffix := (Decoder.suffix_read_feedAll ⟨s.toList.reverse, none, false⟩ bytes).trans
      (Decoder.suffix_read_finish _)
    rw [Decoder.text, String.toList_ofList, ← List.reverse_suffix, List.reverse_reverse]
    exact hsuffix

end Text

end SmellWatch
