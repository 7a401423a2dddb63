import SmellWatch.Decimal.Reading
import SmellWatch.Proofs.Decimal.Shortest
/-! The text of a number, read back.

A decimal is written positionally or with an exponent.  Either way the reader of decimals
gets the number that was written (`numeral?_writeBits`), and since different numbers have
different shortest decimals, they have different texts (`eq_of_writeBits`). -/

namespace SmellWatch.Decimal

/-- The number that a decimal stands for, its sign apart. -/
def Written.value (w : Written) : ℚ := w.digits * (10 : ℚ) ^ w.exponent

variable {n : Nat} {cs ds : List Char} {d : Digits} {s : Style} {f : Format} {b c : Nat}

/-! ## Digits -/

/-- All of these characters are digits. -/
def AreDigits (cs : List Char) : Prop := ∀ c ∈ cs, c.isDigit = true

theorem AreDigits.append (hc : AreDigits cs) (hd : AreDigits ds) : AreDigits (cs ++ ds) := by
  intro c hin
  rcases List.mem_append.mp hin with h | h
  · exact hc c h
  · exact hd c h

theorem areDigits_toDigits (n : Nat) : AreDigits (Nat.toDigits 10 n) :=
  fun _ h => Nat.isDigit_of_mem_toDigits (by decide) (by decide) h

theorem areDigits_zeros (n : Nat) : AreDigits (List.replicate n '0') := by
  intro c h
  rw [List.eq_of_mem_replicate h]
  rfl

theorem areDigits_take (h : AreDigits cs) (n : Nat) : AreDigits (cs.take n) :=
  fun c hin => h c (List.mem_of_mem_take hin)

theorem areDigits_drop (h : AreDigits cs) (n : Nat) : AreDigits (cs.drop n) :=
  fun c hin => h c (List.mem_of_mem_drop hin)

theorem digitsValue_eq (cs : List Char) : digitsValue cs = Nat.ofDigitChars 10 cs 0 := by
  unfold digitsValue Nat.ofDigitChars digitValue
  simp only [Nat.mul_comm 10]

theorem digitsValue_toDigits (n : Nat) : digitsValue (Nat.toDigits 10 n) = n := by
  rw [digitsValue_eq, Nat.ofDigitChars_toDigits (by decide) (by decide)]

theorem digitsValue_zeros_append (n : Nat) (cs : List Char) :
    digitsValue (List.replicate n '0' ++ cs) = digitsValue cs := by
  rw [digitsValue_eq, digitsValue_eq, Nat.ofDigitChars_append, Nat.ofDigitChars_replicate_zero,
    Nat.mul_zero]

theorem digitsValue_append_zeros (cs : List Char) (n : Nat) :
    digitsValue (cs ++ List.replicate n '0') = digitsValue cs * 10 ^ n := by
  rw [digitsValue_eq, digitsValue_eq, Nat.ofDigitChars_append, Nat.ofDigitChars_replicate_zero,
    Nat.mul_comm]

/-! ## What the reader makes of the parts of a number -/

theorem dropWhile_of_takeWhile_nil {rest : List Char} (h : rest.takeWhile Char.isDigit = []) :
    rest.dropWhile Char.isDigit = rest := by
  have := List.takeWhile_append_dropWhile (p := Char.isDigit) (l := rest)
  rwa [h, List.nil_append] at this

/-- Digits, a point, and further digits with an exponent at most after them. -/
theorem written?_pointed (negative : Bool) {whole places rest : List Char} {e : Int}
    (hwhole : AreDigits whole) (hsome : whole ≠ []) (hplaces : AreDigits places)
    (hrest : rest.takeWhile Char.isDigit = []) (he : exponent? rest = some e) :
    written? negative (whole ++ '.' :: (places ++ rest)) =
      some ⟨negative, digitsValue (whole ++ places), e - places.length⟩ := by
  have hpoint : ('.' :: (places ++ rest)).takeWhile Char.isDigit = [] := rfl
  unfold written?
  rw [List.takeWhile_append_of_pos hwhole, List.dropWhile_append_of_pos hwhole, hpoint,
    dropWhile_of_takeWhile_nil hpoint]
  change (if ((whole ++ []).isEmpty && ((places ++ rest).takeWhile Char.isDigit).isEmpty) = true
    then none else (exponent? ((places ++ rest).dropWhile Char.isDigit)).map fun e =>
      (⟨negative, digitsValue (whole ++ [] ++ (places ++ rest).takeWhile Char.isDigit),
        e - ((places ++ rest).takeWhile Char.isDigit).length⟩ : Written)) = _
  rw [List.takeWhile_append_of_pos hplaces, List.dropWhile_append_of_pos hplaces, hrest,
    dropWhile_of_takeWhile_nil hrest, List.append_nil, List.append_nil, he,
    if_neg (by simp [hsome])]
  rfl

/-- Digits and an exponent, with no point. -/
theorem written?_whole (negative : Bool) {whole rest : List Char} {e : Int}
    (hwhole : AreDigits whole) (hsome : whole ≠ [])
    (hrest : rest.takeWhile Char.isDigit = []) (hpoint : ∀ r, rest ≠ '.' :: r)
    (he : exponent? rest = some e) :
    written? negative (whole ++ rest) = some ⟨negative, digitsValue whole, e⟩ := by
  unfold written?
  rw [List.takeWhile_append_of_pos hwhole, List.dropWhile_append_of_pos hwhole, hrest,
    dropWhile_of_takeWhile_nil hrest]
  dsimp only
  rw [List.append_nil]
  split
  · exact absurd rfl (hpoint _)
  · dsimp only
    rw [List.append_nil, he, if_neg (by simp [hsome])]
    simp

/-! ## Positional and scientific texts -/

theorem toList_toString (n : Nat) : (toString n).toList = Nat.toDigits 10 n := Nat.toList_repr

theorem toList_positional (d : Digits) :
    (positional d).toList =
      if 0 ≤ d.exponent then
        (Nat.toDigits 10 d.digits ++ List.replicate d.exponent.toNat '0') ++ '.' :: (['0'] ++ [])
      else if (-d.exponent).toNat < (Nat.toDigits 10 d.digits).length then
        (Nat.toDigits 10 d.digits).take
            ((Nat.toDigits 10 d.digits).length - (-d.exponent).toNat) ++
          '.' :: ((Nat.toDigits 10 d.digits).drop
            ((Nat.toDigits 10 d.digits).length - (-d.exponent).toNat) ++ [])
      else
        ['0'] ++ '.' :: ((List.replicate
          ((-d.exponent).toNat - (Nat.toDigits 10 d.digits).length) '0' ++
            Nat.toDigits 10 d.digits) ++ []) := by
  unfold positional
  dsimp only
  rw [← String.length_toList, toList_toString]
  split
  · simp
  · split <;> simp

/-- The reader gets the number of a positional text. -/
theorem written?_positional (negative : Bool) (d : Digits) :
    ∃ w, written? negative (positional d).toList = some w ∧ w.negative = negative ∧
      w.value = d.value := by
  have hdigits := areDigits_toDigits d.digits
  have hvalue := digitsValue_toDigits d.digits
  have hne : Nat.toDigits 10 d.digits ≠ [] := Nat.toDigits_ne_nil
  rw [toList_positional]
  generalize Nat.toDigits 10 d.digits = ds at hdigits hvalue hne ⊢
  split
  · -- zeros stand for the exponent
    rename_i hexponent
    refine ⟨_, written?_pointed negative (hdigits.append (areDigits_zeros _)) (by simp [hne])
      (areDigits_zeros 1) rfl rfl, rfl, ?_⟩
    have hall : digitsValue (ds ++ List.replicate d.exponent.toNat '0' ++ ['0']) =
        d.digits * 10 ^ d.exponent.toNat * 10 := by
      rw [show ['0'] = List.replicate 1 '0' from rfl, digitsValue_append_zeros,
        digitsValue_append_zeros, hvalue, pow_one]
    have hpow : (10 : ℚ) ^ d.exponent = 10 ^ d.exponent.toNat := by
      rw [← zpow_natCast, Int.toNat_of_nonneg hexponent]
    unfold Written.value Digits.value
    rw [hall, hpow]
    show ((d.digits * 10 ^ d.exponent.toNat * 10 : Nat) : ℚ) * 10 ^ (-1 : Int) = _
    push_cast
    rw [zpow_neg_one]
    ring
  · rename_i hexponent
    split
    · -- the point stands among the digits
      rename_i hshort
      refine ⟨_, written?_pointed negative (areDigits_take hdigits _) ?_
        (areDigits_drop hdigits _) rfl rfl, rfl, ?_⟩
      · rw [ne_eq, List.take_eq_nil_iff, not_or]
        exact ⟨by omega, hne⟩
      · unfold Written.value Digits.value
        dsimp only
        rw [List.take_append_drop, hvalue, List.length_drop]
        congr 2
        omega
    · -- zeros stand between the point and the digits
      rename_i hlong
      refine ⟨_, written?_pointed negative (areDigits_zeros 1) (by decide)
        ((areDigits_zeros _).append hdigits) rfl rfl, rfl, ?_⟩
      have hall : digitsValue (['0'] ++ (List.replicate ((-d.exponent).toNat - ds.length) '0' ++
          ds)) = d.digits := by
        rw [show ['0'] = List.replicate 1 '0' from rfl, digitsValue_zeros_append,
          digitsValue_zeros_append, hvalue]
      unfold Written.value Digits.value
      rw [hall, List.length_append, List.length_replicate]
      congr 2
      dsimp only
      omega

/-- The reader gets an exponent of ten, written after its letter. -/
theorem exponent?_written (k : Int) {mark : List Char} (hmark : mark = [] ∨ mark = ['+']) :
    exponent? ('e' :: if 0 ≤ k then mark ++ Nat.toDigits 10 k.toNat else
      '-' :: Nat.toDigits 10 (-k).toNat) = some k := by
  have hread : ∀ n : Nat, (Nat.toDigits 10 n).isEmpty = false ∧
      (Nat.toDigits 10 n).all Char.isDigit = true := fun n =>
    ⟨by simp, List.all_eq_true.mpr (areDigits_toDigits n)⟩
  have hplain : ∀ n : Nat, splitSign (Nat.toDigits 10 n) = (false, Nat.toDigits 10 n) := by
    intro n
    have hfirst := areDigits_toDigits n
    unfold splitSign
    split
    · rename_i heq
      exact absurd (hfirst '-' (heq ▸ List.mem_cons_self)) (by decide)
    · rename_i heq
      exact absurd (hfirst '+' (heq ▸ List.mem_cons_self)) (by decide)
    · rfl
  unfold exponent?
  dsimp only
  rw [if_pos (.inl rfl)]
  split
  · rename_i hk
    have hsplit : splitSign (mark ++ Nat.toDigits 10 k.toNat) =
        (false, Nat.toDigits 10 k.toNat) := by
      rcases hmark with rfl | rfl
      · exact hplain _
      · rfl
    rw [hsplit]
    dsimp only
    rw [(hread _).1, (hread _).2, digitsValue_toDigits, Int.toNat_of_nonneg hk]
    rfl
  · rename_i hk
    show (if (Nat.toDigits 10 (-k).toNat).isEmpty || !(Nat.toDigits 10 (-k).toNat).all
      Char.isDigit then none else some (-(digitsValue (Nat.toDigits 10 (-k).toNat) : Int))) = _
    rw [(hread _).1, (hread _).2, digitsValue_toDigits, Int.toNat_of_nonneg (by omega), neg_neg]
    rfl

theorem toList_scientific {mark : String} (d : Digits) {lead : Char} {rest : List Char}
    (hds : Nat.toDigits 10 d.digits = lead :: rest) :
    (scientific mark d).toList =
      lead :: ((if rest = [] then [] else '.' :: rest) ++
        'e' :: if 0 ≤ d.exponent + rest.length then
          mark.toList ++ Nat.toDigits 10 (d.exponent + rest.length).toNat else
          '-' :: Nat.toDigits 10 (-(d.exponent + rest.length)).toNat) := by
  have horder : d.exponent + ((lead :: rest).length : Int) - 1 = d.exponent + rest.length := by
    rw [List.length_cons]
    omega
  unfold scientific
  dsimp only
  rw [toList_toString, hds, horder, String.toList_append, String.toList_append,
    String.toList_append, apply_ite String.toList, apply_ite String.toList,
    String.toList_append, String.toList_append, String.toList_append, toList_toString,
    toList_toString]
  by_cases hrest : rest = []
  · subst hrest
    simp
  · simp [hrest]

/-- The reader gets the number of a text with an exponent. -/
theorem written?_scientific (negative : Bool) {mark : String}
    (hmark : mark.toList = [] ∨ mark.toList = ['+']) (d : Digits) :
    ∃ w, written? negative (scientific mark d).toList = some w ∧ w.negative = negative ∧
      w.value = d.value := by
  have hdigits := areDigits_toDigits d.digits
  have hvalue := digitsValue_toDigits d.digits
  obtain ⟨lead, rest, hds⟩ := List.exists_cons_of_ne_nil
    (Nat.toDigits_ne_nil (b := 10) (n := d.digits))
  have hexponent := exponent?_written (d.exponent + rest.length) hmark
  rw [toList_scientific d hds]
  rw [hds] at hdigits hvalue
  have hlead : AreDigits [lead] := fun c hc => hdigits c (by simp_all)
  generalize hx : ('e' :: if 0 ≤ d.exponent + rest.length then
    mark.toList ++ Nat.toDigits 10 (d.exponent + rest.length).toNat else
    '-' :: Nat.toDigits 10 (-(d.exponent + rest.length)).toNat) = x at hexponent ⊢
  have hletter : x.takeWhile Char.isDigit = [] := by
    rw [← hx]
    rfl
  have hpoint : ∀ r, x ≠ '.' :: r := by
    rintro r rfl
    exact absurd (List.cons.inj hx).1 (by decide)
  by_cases hrest : rest = []
  · subst hrest
    rw [if_pos rfl, List.nil_append]
    refine ⟨_, written?_whole negative hlead (by simp) hletter hpoint hexponent, rfl, ?_⟩
    unfold Written.value Digits.value
    rw [hvalue]
    simp
  · rw [if_neg hrest]
    refine ⟨_, written?_pointed negative hlead (by simp)
      (fun c hc => hdigits c (List.mem_cons_of_mem _ hc)) hletter hexponent, rfl, ?_⟩
    unfold Written.value Digits.value
    rw [List.singleton_append, hvalue]
    simp

/-! ## Numbers -/

/-- A style whose exponents the reader understands. -/
def Style.IsReadable (s : Style) : Prop :=
  s.positiveMark.toList = [] ∨ s.positiveMark.toList = ['+']

theorem written?_write (hs : s.IsReadable) (negative : Bool) (d : Digits) :
    ∃ w, written? negative (s.write d).toList = some w ∧ w.negative = negative ∧
      w.value = d.value := by
  unfold Style.write
  dsimp only
  split
  · exact written?_positional negative d
  · exact written?_scientific negative hs d

/-- What is read as a decimal without a sign does not start with one. -/
theorem splitSign_of_written? {negative : Bool} {w : Written} (h : written? negative cs = some w) :
    splitSign cs = (false, cs) := by
  unfold splitSign
  split
  · cases h
  · cases h
  · rfl

theorem numeral?_of_written? {negative : Bool} {w : Written}
    (hsign : splitSign cs = (negative, ds)) (h : written? negative ds = some w) :
    numeral? cs = some (.decimal w) := by
  unfold numeral?
  rw [hsign]
  dsimp only
  rw [h]

/-- The reader gets the sign and the shortest decimal of a number. -/
theorem numeral?_writeBits (hs : s.IsReadable) (f : Format) (b : Nat) :
    ∃ w, numeral? (s.writeBits f b).toList = some (.decimal w) ∧
      w.negative = f.isNegative b ∧
      w.value = if b % f.signBit = 0 then 0 else (shortest f (b % f.signBit)).value := by
  -- the text without the sign
  obtain ⟨text, htext, hread⟩ : ∃ text : String,
      s.writeBits f b = (if f.isNegative b then "-" else "") ++ text ∧
      ∀ negative, ∃ w, written? negative text.toList = some w ∧ w.negative = negative ∧
        w.value = if b % f.signBit = 0 then 0 else (shortest f (b % f.signBit)).value := by
    unfold Style.writeBits
    dsimp only
    split
    · refine ⟨"0.0", rfl, fun negative => ⟨⟨negative, 0, -1⟩, rfl, rfl, ?_⟩⟩
      unfold Written.value
      simp
    · exact ⟨_, rfl, fun negative => written?_write hs negative _⟩
  rw [htext, String.toList_append]
  obtain ⟨w, hw, hsign, hvalue⟩ := hread (f.isNegative b)
  refine ⟨w, ?_, hsign, hvalue⟩
  cases hnegative : f.isNegative b with
  | true =>
    rw [hnegative] at hw
    exact numeral?_of_written? rfl hw
  | false =>
    rw [hnegative] at hw
    exact numeral?_of_written? (splitSign_of_written? hw) hw

/-- Numbers with one text are the same. -/
theorem eq_of_writeBits (hs : s.IsReadable) (hf : f.IsNarrow) (hb : b < 2 * f.signBit)
    (hc : c < 2 * f.signBit) (h : s.writeBits f b = s.writeBits f c) : b = c := by
  obtain ⟨w, hw, hsign, hvalue⟩ := numeral?_writeBits hs f b
  obtain ⟨w', hw', hsign', hvalue'⟩ := numeral?_writeBits hs f c
  rw [h, hw'] at hw
  cases hw
  have hpositive : 0 < f.signBit := by omega
  have hlow : b % f.signBit = c % f.signBit := by
    rw [hvalue] at hvalue'
    have hltb := Nat.mod_lt b hpositive
    have hltc := Nat.mod_lt c hpositive
    by_cases hzerob : b % f.signBit = 0 <;> by_cases hzeroc : c % f.signBit = 0
    · rw [hzerob, hzeroc]
    · rw [if_pos hzerob, if_neg hzeroc] at hvalue'
      exact absurd hvalue' (value_shortest_pos hf (Nat.pos_of_ne_zero hzeroc) hltc).ne
    · rw [if_neg hzerob, if_pos hzeroc] at hvalue'
      exact absurd hvalue' (value_shortest_pos hf (Nat.pos_of_ne_zero hzerob) hltb).ne'
    · rw [if_neg hzerob, if_neg hzeroc] at hvalue'
      exact eq_of_value_shortest hf (Nat.pos_of_ne_zero hzerob) hltb (Nat.pos_of_ne_zero hzeroc)
        hltc hvalue'
  have hhigh : (f.signBit ≤ b ↔ f.signBit ≤ c) := by
    have hsame : f.isNegative b = f.isNegative c := hsign.symm.trans hsign'
    unfold Format.isNegative at hsame
    simpa using hsame
  have hsplit : ∀ a, a < 2 * f.signBit →
      a = a % f.signBit + if f.signBit ≤ a then f.signBit else 0 := by
    intro a ha
    split
    · rename_i hle
      rw [Nat.mod_eq_sub_mod hle, Nat.mod_eq_of_lt (by omega)]
      omega
    · rw [Nat.mod_eq_of_lt (by omega), Nat.add_zero]
  rw [hsplit b hb, hsplit c hc, hlow]
  simp only [hhigh]

end SmellWatch.Decimal
