import SmellWatch.Proofs.Decimal.Shortest
/-! A number of 32 bits is the same number in 64 bits.

Different bits stand for different numbers (`eq_of_value`).  A number that a format has is rounded to
itself (`round_spec`), and 64 bits have all numbers of 32 bits.  So a number of 32 bits is got back
from 64 bits (`Single.toSingle_toDouble`). -/

namespace SmellWatch.Decimal

variable {f g : Format} {b c n num den m : Nat} {k : Int}

namespace Format

/-! ## The number that bits stand for -/

/-- The number with these bits, its sign apart. -/
def value (f : Format) (b : Nat) : ℚ := (f.magnitude b).1 * 2 ^ (f.magnitude b).2

theorem infinity_lt_signBit (f : Format) : f.infinity < f.signBit := by
  unfold infinity signBit
  simp only [Nat.pow_eq]
  rw [Nat.pow_add]
  exact Nat.mul_lt_mul_of_pos_right (Nat.sub_lt (Nat.two_pow_pos _) Nat.one_pos)
    (Nat.two_pow_pos _)

theorem value_succ (h : b + 1 < f.signBit) :
    f.value (b + 1) = ((f.magnitude b).1 + 1) * 2 ^ (f.magnitude b).2 := by
  unfold value
  rcases magnitude_succ f h with ⟨hm, he, -⟩ | ⟨hfull, hm, he, -⟩
  · rw [hm, he]
    push_cast
    rfl
  · have hcast : ((f.magnitude b).1 : ℚ) + 1 = 2 * 2 ^ f.fraction := by exact_mod_cast hfull
    rw [hm, he, hcast, zpow_add₀ two_ne_zero, zpow_one]
    push_cast
    ring

theorem value_lt (h : b < c) (hc : c < f.signBit) : f.value b < f.value c := by
  have hsucc : ∀ a, a + 1 < f.signBit → f.value a < f.value (a + 1) := by
    intro a ha
    rw [value_succ ha]
    unfold value
    have hpow : (0 : ℚ) < 2 ^ (f.magnitude a).2 := zpow_pos two_pos _
    linarith
  induction c, h using Nat.le_induction with
  | base => exact hsucc b hc
  | succ c hle ih => exact (ih (by omega)).trans (hsucc c hc)

/-- Different bits stand for different numbers. -/
theorem eq_of_value (hb : b < f.signBit) (hc : c < f.signBit) (h : f.value b = f.value c) :
    b = c := by
  rcases Nat.lt_trichotomy b c with hlt | heq | hgt
  · exact absurd h (value_lt hlt hc).ne
  · exact heq
  · exact absurd h (value_lt hgt hb).ne'

theorem quotient_spec (f : Format) (b : Nat) :
    0 < (f.quotient b).2 ∧ ((f.quotient b).1 : ℚ) / (f.quotient b).2 = f.value b := by
  unfold quotient value
  obtain ⟨m, e⟩ := f.magnitude b
  obtain ⟨hnonneg, hneg⟩ := zpow_quotient 2 (by decide) e
  push_cast at hnonneg hneg
  dsimp only
  split
  · rename_i he
    refine ⟨Nat.one_pos, ?_⟩
    rw [hnonneg he]
    push_cast
    ring
  · rename_i he
    have hpos : 0 < Nat.pow 2 (-e).toNat := Nat.pow_pos (by decide)
    have hpow : ((Nat.pow 2 (-e).toNat : Nat) : ℚ) ≠ 0 := by exact_mod_cast hpos.ne'
    refine ⟨hpos, ?_⟩
    rw [div_eq_iff hpow, mul_assoc]
    push_cast at hneg ⊢
    rw [hneg (by omega), mul_one]

/-- The bits that are put together from a unit and from how many of them there are. -/
theorem value_pack {j : Nat} (hn : n < 2 * 2 ^ f.fraction) (hj : j = 0 ∨ 2 ^ f.fraction ≤ n)
    (hbits : j * 2 ^ f.fraction + n < f.signBit) :
    f.value (j * 2 ^ f.fraction + n) = n * 2 ^ (f.leastExponent + j) := by
  have hpos : 0 < 2 ^ f.fraction := Nat.two_pow_pos _
  unfold value magnitude
  dsimp only
  rw [Nat.mod_eq_of_lt hbits]
  simp only [Nat.pow_eq]
  generalize 2 ^ f.fraction = p at hn hj hpos ⊢
  by_cases hsmall : n < p
  · obtain rfl : j = 0 := by omega
    rw [Nat.zero_mul, Nat.zero_add, Nat.div_eq_of_lt hsmall, if_pos rfl]
    simp
  · have hsplit : j * p + n = (n - p) + p * (j + 1) := by
      rw [Nat.mul_add, Nat.mul_one, Nat.mul_comm p j]
      omega
    have hrest : n - p < p := by omega
    rw [hsplit, Nat.add_mul_div_left _ _ hpos, Nat.add_mul_mod_self_left, Nat.div_eq_of_lt hrest,
      Nat.mod_eq_of_lt hrest, Nat.zero_add, if_neg (Nat.succ_ne_zero j)]
    dsimp only
    rw [Nat.sub_add_cancel (Nat.le_of_not_lt hsmall)]
    congr 2
    push_cast
    ring

/-! ## Rounding what needs no rounding -/

theorem divideEven_mul (hd : 0 < den) (n : Nat) : divideEven (n * den) den = n := by
  unfold divideEven
  rw [Nat.mul_div_cancel _ hd, Nat.mul_mod_left]
  simp
  omega

theorem scaled_spec (hden : 0 < den) (num : Nat) (e : Int) :
    0 < (scaled num den e).2 ∧
      ((scaled num den e).1 : ℚ) / (scaled num den e).2 * 2 ^ e = num / den := by
  obtain ⟨hnonneg, hneg⟩ := zpow_quotient 2 (by decide) e
  have hd : (den : ℚ) ≠ 0 := by exact_mod_cast hden.ne'
  have hpow : (2 : ℚ) ^ e ≠ 0 := zpow_ne_zero _ two_ne_zero
  unfold scaled
  push_cast at hnonneg hneg
  split
  · rename_i he
    refine ⟨Nat.mul_pos hden (Nat.pow_pos (by decide)), ?_⟩
    push_cast
    rw [hnonneg he] at hpow ⊢
    field_simp
  · rename_i he
    refine ⟨hden, ?_⟩
    push_cast
    rw [div_mul_eq_mul_div, mul_assoc, mul_comm _ ((2 : ℚ) ^ e), hneg (by omega), mul_one]

/-- The order of magnitude of a quotient, by the lengths of its parts. -/
theorem between_log2 (hnum : 0 < num) (hden : 0 < den) :
    (2 : ℚ) ^ ((Nat.log2 num : Int) - Nat.log2 den - 1) < num / den ∧
      (num / den : ℚ) < 2 ^ ((Nat.log2 num : Int) - Nat.log2 den + 1) := by
  have hd : (0 : ℚ) < den := by exact_mod_cast hden
  have hnumlow : (2 : ℚ) ^ (Nat.log2 num : Int) ≤ num := by
    exact_mod_cast Nat.log2_self_le hnum.ne'
  have hnumhigh : (num : ℚ) < 2 ^ ((Nat.log2 num : Int) + 1) := by
    exact_mod_cast Nat.lt_log2_self
  have hdenlow : (2 : ℚ) ^ (Nat.log2 den : Int) ≤ den := by
    exact_mod_cast Nat.log2_self_le hden.ne'
  have hdenhigh : (den : ℚ) < 2 ^ ((Nat.log2 den : Int) + 1) := by
    exact_mod_cast Nat.lt_log2_self
  constructor
  · rw [lt_div_iff₀ hd]
    calc (2 : ℚ) ^ ((Nat.log2 num : Int) - Nat.log2 den - 1) * den
        < 2 ^ ((Nat.log2 num : Int) - Nat.log2 den - 1) * 2 ^ ((Nat.log2 den : Int) + 1) :=
          mul_lt_mul_of_pos_left hdenhigh (zpow_pos two_pos _)
      _ = 2 ^ (Nat.log2 num : Int) := by
          rw [← zpow_add₀ two_ne_zero]
          congr 1
          ring
      _ ≤ num := hnumlow
  · rw [div_lt_iff₀ hd]
    calc (num : ℚ) < 2 ^ ((Nat.log2 num : Int) + 1) := hnumhigh
      _ = 2 ^ ((Nat.log2 num : Int) - Nat.log2 den + 1) * 2 ^ (Nat.log2 den : Int) := by
          rw [← zpow_add₀ two_ne_zero]
          congr 1
          ring
      _ ≤ 2 ^ ((Nat.log2 num : Int) - Nat.log2 den + 1) * den :=
          mul_le_mul_of_nonneg_left hdenlow (zpow_pos two_pos _).le

/-- The exponent of the unit in which a quotient is rounded. -/
def unitExponent (f : Format) (num den : Nat) : Int :=
  let guess : Int := (Nat.log2 num : Int) - Nat.log2 den - f.fraction
  let (n, d) := scaled num den guess
  max (if n < d * Nat.pow 2 f.fraction then guess - 1 else guess) f.leastExponent

theorem round_eq (f : Format) (hnum : 0 < num) (hden : 0 < den) :
    f.round num den = min ((f.unitExponent num den - f.leastExponent).toNat * 2 ^ f.fraction +
      divideEven (scaled num den (f.unitExponent num den)).1
        (scaled num den (f.unitExponent num den)).2) f.infinity := by
  unfold round
  rw [if_neg (not_or.mpr ⟨hnum.ne', hden.ne'⟩)]
  rfl

/-- In its unit a quotient has at most as many binary digits as a number of the format, and no fewer
unless it is the least unit. -/
theorem unitExponent_spec (f : Format) (hnum : 0 < num) (hden : 0 < den) :
    f.leastExponent ≤ f.unitExponent num den ∧
      (num / den : ℚ) < 2 ^ (f.unitExponent num den + f.fraction + 1) ∧
      (f.leastExponent < f.unitExponent num den →
        (2 : ℚ) ^ (f.unitExponent num den + f.fraction) ≤ num / den) := by
  obtain ⟨hlow, hhigh⟩ := between_log2 hnum hden
  obtain ⟨guess, hguess⟩ : ∃ guess : Int,
    guess = (Nat.log2 num : Int) - Nat.log2 den - f.fraction := ⟨_, rfl⟩
  obtain ⟨hd, hscaled⟩ := scaled_spec hden num guess
  have hpow : (0 : ℚ) < 2 ^ guess := zpow_pos two_pos _
  have hdq : (0 : ℚ) < (scaled num den guess).2 := by exact_mod_cast hd
  have hbelow : (scaled num den guess).1 < (scaled num den guess).2 * Nat.pow 2 f.fraction ↔
      (num / den : ℚ) < 2 ^ (guess + f.fraction) := by
    rw [← hscaled, zpow_add₀ two_ne_zero, mul_comm ((2 : ℚ) ^ guess),
      mul_lt_mul_iff_of_pos_right hpow, div_lt_iff₀ hdq, zpow_natCast, Nat.mul_comm]
    simp only [Nat.pow_eq]
    exact_mod_cast Iff.rfl
  have hmono : ∀ {a b : Int}, a ≤ b → (2 : ℚ) ^ a ≤ 2 ^ b := zpow_le_zpow_right₀ one_le_two
  unfold unitExponent
  rw [← hguess]
  dsimp only
  by_cases hfew : (scaled num den guess).1 < (scaled num den guess).2 * Nat.pow 2 f.fraction
  · rw [if_pos hfew]
    refine ⟨le_max_right _ _, (hbelow.mp hfew).trans_le (hmono (by omega)), fun h => ?_⟩
    exact (hmono (by omega)).trans hlow.le
  · rw [if_neg hfew]
    refine ⟨le_max_right _ _, hhigh.trans_le (hmono (by omega)), fun h => ?_⟩
    rw [max_eq_left (by omega)]
    exact le_of_not_gt (hbelow.not.mp hfew)

/-- A number that a format has is rounded to itself. -/
theorem round_spec (hden : 0 < den) (hm : m < 2 * 2 ^ f.fraction) (hlow : f.leastExponent ≤ k)
    (hhigh : k + 3 ≤ f.leastExponent + 2 ^ f.exponent) (h : (num : ℚ) / den = m * 2 ^ k) :
    f.round num den < f.infinity ∧ f.value (f.round num den) = m * 2 ^ k := by
  have hroom : (k - f.leastExponent).toNat + 3 ≤ 2 ^ f.exponent := by
    have hcast : ((2 ^ f.exponent : Nat) : Int) = 2 ^ f.exponent := by push_cast; rfl
    omega
  have hinfinity : ∀ {j n : Nat}, j ≤ (k - f.leastExponent).toNat → n < 2 * 2 ^ f.fraction →
      j * 2 ^ f.fraction + n < f.infinity := by
    intro j n hj hn
    unfold infinity
    simp only [Nat.pow_eq]
    calc j * 2 ^ f.fraction + n < (j + 2) * 2 ^ f.fraction := by
          rw [Nat.add_mul]
          omega
      _ ≤ (2 ^ f.exponent - 1) * 2 ^ f.fraction := Nat.mul_le_mul_right _ (by omega)
  by_cases hzero : num = 0
  · subst hzero
    have hround : f.round 0 den = 0 := if_pos (.inl rfl)
    rw [hround, ← h]
    refine ⟨(Nat.zero_le _).trans_lt (hinfinity (Nat.zero_le _) hm), ?_⟩
    simp [value, magnitude]
  · have hnum : 0 < num := Nat.pos_of_ne_zero hzero
    obtain ⟨hleast, hceil, hfloor⟩ := unitExponent_spec f hnum hden
    rw [round_eq f hnum hden]
    obtain ⟨e, he⟩ : ∃ e, e = f.unitExponent num den := ⟨_, rfl⟩
    rw [← he] at hleast hceil hfloor ⊢
    have htop : (m * 2 ^ k : ℚ) < 2 ^ (k + f.fraction + 1) := by
      have hcast : (m : ℚ) < 2 * 2 ^ f.fraction := by exact_mod_cast hm
      rw [zpow_add₀ two_ne_zero, zpow_add₀ two_ne_zero, zpow_natCast, zpow_one]
      linarith [mul_lt_mul_of_pos_right hcast (zpow_pos (two_pos (α := ℚ)) k)]
    have hle : e ≤ k := by
      refine not_lt.mp fun hlt => absurd (hfloor (by omega)) (not_le.mpr ?_)
      rw [h]
      exact htop.trans_le (zpow_le_zpow_right₀ one_le_two (by omega))
    -- the quotient is a whole number of units
    obtain ⟨n, hn⟩ : ∃ n : Nat, (num : ℚ) / den = n * 2 ^ e := by
      refine ⟨m * 2 ^ (k - e).toNat, ?_⟩
      rw [h]
      push_cast
      rw [mul_assoc, ← zpow_natCast, ← zpow_add₀ two_ne_zero, Int.toNat_of_nonneg (by omega)]
      congr 2
      ring
    have hpow : (0 : ℚ) < 2 ^ e := zpow_pos two_pos _
    have hmany : n < 2 * 2 ^ f.fraction := by
      rw [hn, Int.add_assoc, zpow_add₀ two_ne_zero, mul_comm, mul_lt_mul_iff_of_pos_left hpow,
        zpow_add₀ two_ne_zero, zpow_natCast, zpow_one, mul_comm] at hceil
      exact_mod_cast hceil
    have hfew : (e - f.leastExponent).toNat = 0 ∨ 2 ^ f.fraction ≤ n := by
      refine or_iff_not_imp_left.mpr fun hne => ?_
      have hunits := hfloor (by omega)
      rw [hn, zpow_add₀ two_ne_zero, mul_comm, mul_le_mul_iff_of_pos_right hpow,
        zpow_natCast] at hunits
      exact_mod_cast hunits
    obtain ⟨hd, hscaled⟩ := scaled_spec hden num e
    have hwhole : (scaled num den e).1 = n * (scaled num den e).2 := by
      rw [hn] at hscaled
      have hdq : ((scaled num den e).2 : ℚ) ≠ 0 := by exact_mod_cast hd.ne'
      exact_mod_cast (div_eq_iff hdq).mp (mul_right_cancel₀ hpow.ne' hscaled)
    have hbits := hinfinity (show (e - f.leastExponent).toNat ≤ _ by omega) hmany
    rw [hwhole, divideEven_mul hd, min_eq_left hbits.le]
    refine ⟨hbits, ?_⟩
    rw [value_pack hmany hfew (hbits.trans f.infinity_lt_signBit), ← h, hn]
    congr 2
    omega

/-! ## From one format to another -/

/-- A finite number is so many units, and its unit is one that the format has. -/
theorem magnitude_spec (hexponent : 2 ≤ f.exponent) (hb : b < f.infinity) :
    (f.magnitude b).1 < 2 * 2 ^ f.fraction ∧ f.leastExponent ≤ (f.magnitude b).2 ∧
      (f.magnitude b).2 + 3 ≤ f.leastExponent + 2 ^ f.exponent := by
  have hpos : 0 < 2 ^ f.fraction := Nat.two_pow_pos _
  have hfour : 2 ^ 2 ≤ 2 ^ f.exponent := Nat.pow_le_pow_right (by decide) hexponent
  have hcast : ((2 ^ f.exponent : Nat) : Int) = 2 ^ f.exponent := by push_cast; rfl
  have hstored : b / 2 ^ f.fraction < 2 ^ f.exponent - 1 := (Nat.div_lt_iff_lt_mul hpos).mpr hb
  unfold magnitude
  dsimp only
  rw [Nat.mod_eq_of_lt (hb.trans f.infinity_lt_signBit)]
  simp only [Nat.pow_eq]
  by_cases hzero : b / 2 ^ f.fraction = 0
  · have hsmall := (Nat.div_eq_zero_iff_lt hpos).mp hzero
    rw [if_pos hzero]
    refine ⟨?_, le_refl _, ?_⟩ <;> dsimp only <;> omega
  · have hrest := Nat.mod_lt b hpos
    rw [if_neg hzero]
    generalize b / 2 ^ f.fraction = stored at hstored hzero ⊢
    refine ⟨?_, ?_, ?_⟩ <;> dsimp only <;> omega

theorem value_mod (f : Format) (b : Nat) : f.value (b % f.signBit) = f.value b := by
  unfold value magnitude
  rw [Nat.mod_mod]

theorem isFinite_iff (f : Format) (b : Nat) :
    (!f.isNaN b && !f.isInfinite b) = true ↔ b % f.signBit < f.infinity := by
  unfold isNaN isInfinite
  simp
  omega

/-- A sign in front of bits. -/
theorem sign_spec (hc : c < f.signBit) (negative : Bool) :
    ((if negative then f.signBit else 0) + c) % f.signBit = c ∧
      f.isNegative ((if negative then f.signBit else 0) + c) = negative := by
  unfold isNegative
  cases negative with
  | true => simp [Nat.add_mod_left, Nat.mod_eq_of_lt hc]
  | false => simp [Nat.mod_eq_of_lt hc, hc]

/-- The bits of a finite number that the other format has too. -/
theorem convert_spec (hb : b % f.signBit < f.infinity) (hm : m < 2 * 2 ^ g.fraction)
    (hlow : g.leastExponent ≤ k) (hhigh : k + 3 ≤ g.leastExponent + 2 ^ g.exponent)
    (h : f.value b = m * 2 ^ k) :
    ∃ c < g.infinity, f.convert g b = (if f.isNegative b then g.signBit else 0) + c ∧
      g.value c = m * 2 ^ k := by
  obtain ⟨hden, hquotient⟩ := quotient_spec f b
  obtain ⟨hfinite, hvalue⟩ := round_spec (f := g) hden hm hlow hhigh (hquotient.trans h)
  refine ⟨_, hfinite, ?_, hvalue⟩
  unfold convert isNaN isInfinite
  rw [if_neg (by simpa using hb.le), if_neg (by simpa using hb.ne)]

/-- What is no finite number is none in another format. -/
theorem convert_of_not_finite (hb : f.infinity ≤ b % f.signBit) (hfraction : 0 < g.fraction) :
    ∃ c, g.infinity ≤ c ∧ c < g.signBit ∧
      f.convert g b = (if f.isNegative b then g.signBit else 0) + c := by
  have hhalf : g.infinity + Nat.pow 2 (g.fraction - 1) < g.signBit := by
    have hlt : 2 ^ (g.fraction - 1) < 2 ^ g.fraction := Nat.pow_lt_pow_right (by decide) (by omega)
    have hle : 2 ^ g.fraction ≤ 2 ^ g.exponent * 2 ^ g.fraction :=
      Nat.le_mul_of_pos_left _ (Nat.two_pow_pos _)
    unfold infinity signBit
    simp only [Nat.pow_eq]
    rw [Nat.pow_add, Nat.sub_mul, Nat.one_mul]
    omega
  unfold convert isNaN isInfinite
  by_cases hnan : f.infinity < b % f.signBit
  · rw [if_pos (by simpa using hnan)]
    exact ⟨_, Nat.le_add_right _ _, hhalf, Nat.add_assoc _ _ _⟩
  · rw [if_neg (by simpa using hnan), if_pos (by simpa using by omega)]
    exact ⟨_, le_refl _, g.infinity_lt_signBit, rfl⟩

end Format

namespace Single

variable {x : Single}

theorem bits_toDouble (hc : c < Format.double.signBit)
    (h : Format.single.convert .double x.bits.toNat =
      (if Format.single.isNegative x.bits.toNat then Format.double.signBit else 0) + c) :
    x.toDouble.bits.toNat % Format.double.signBit = c ∧
      x.toDouble.isNegative = x.isNegative := by
  have hbits : x.toDouble.bits.toNat = (if Format.single.isNegative x.bits.toNat then
      Format.double.signBit else 0) + c := by
    have hbound : Format.single.convert .double x.bits.toNat < 2 ^ 64 := by
      have hwidth : Format.double.signBit = 2 ^ 63 := by decide
      rw [h]
      split <;> omega
    unfold toDouble
    rw [UInt64.toNat_ofNat_of_lt' hbound, h]
  unfold Double.isNegative
  rw [hbits]
  exact Format.sign_spec hc _

/-- A finite number is the same in 64 bits, and has the same sign. -/
theorem toDouble_spec (h : x.isFinite = true) :
    x.toDouble.isFinite = true ∧ x.toDouble.isNegative = x.isNegative ∧
      Format.double.value x.toDouble.bits.toNat = Format.single.value x.bits.toNat := by
  have hfinite := (Format.isFinite_iff _ _).mp h
  obtain ⟨hm, hlow, hhigh⟩ := Format.magnitude_spec (f := .single) (by decide) hfinite
  obtain ⟨c, hc, hconvert, hvalue⟩ := Format.convert_spec (g := .double) hfinite
    (hm.trans_le (by decide)) (le_trans (by decide) hlow) (hhigh.trans (by decide))
    (Format.value_mod _ _).symm
  obtain ⟨hrest, hnegative⟩ := bits_toDouble (hc.trans (Format.infinity_lt_signBit _)) hconvert
  refine ⟨(Format.isFinite_iff _ _).mpr (hrest ▸ hc), hnegative, ?_⟩
  rw [← Format.value_mod, hrest, hvalue]
  exact Format.value_mod _ _

theorem isFinite_toDouble (x : Single) : x.toDouble.isFinite = x.isFinite := by
  cases hx : x.isFinite with
  | true => exact (toDouble_spec hx).1
  | false =>
    rw [← Bool.not_eq_true] at hx ⊢
    obtain ⟨c, hle, hlt, hconvert⟩ := Format.convert_of_not_finite (g := .double)
      (not_lt.mp ((Format.isFinite_iff _ _).not.mp hx)) (by decide)
    refine (Format.isFinite_iff _ _).not.mpr (not_lt.mpr ?_)
    rw [(bits_toDouble hlt hconvert).1]
    exact hle

/-- A finite number is got back from 64 bits. -/
theorem toSingle_toDouble (h : x.isFinite = true) : x.toDouble.toSingle = x := by
  obtain ⟨hfinite, hnegative, hvalue⟩ := toDouble_spec h
  have hx := (Format.isFinite_iff _ _).mp h
  obtain ⟨hm, hlow, hhigh⟩ := Format.magnitude_spec (f := .single) (by decide) hx
  obtain ⟨c, hc, hconvert, hback⟩ := Format.convert_spec (g := .single)
    ((Format.isFinite_iff _ _).mp hfinite) hm hlow hhigh
    (hvalue.trans (Format.value_mod _ _).symm)
  have hsign : Format.single.infinity < Format.single.signBit := Format.infinity_lt_signBit _
  obtain rfl := Format.eq_of_value (hc.trans hsign) (hx.trans hsign) hback
  have hbits : Format.double.convert .single x.toDouble.bits.toNat = x.bits.toNat := by
    have hbound := x.bits.toNat_lt
    have hwidth : Format.single.signBit = 2 ^ 31 := by decide
    rw [hconvert]
    change (if x.toDouble.isNegative then _ else _) + _ = _
    rw [hnegative]
    unfold isNegative Format.isNegative
    rw [hwidth]
    simp only [decide_eq_true_eq]
    split <;> omega
  unfold Double.toSingle
  rw [hbits]
  simp

end Single

end SmellWatch.Decimal
