import Mathlib.Data.Rat.Floor
import Mathlib.Tactic.FieldSimp
import Mathlib.Tactic.Linarith
import Mathlib.Tactic.LinearCombination
import Mathlib.Tactic.Positivity
import Mathlib.Tactic.Ring
import SmellWatch.Decimal.Shortest
/-! The shortest decimal of a number rounds to this number and to no other.

The intervals of the numbers of a format follow on one another: where one ends the next
begins (`highEnd_eq_lowEnd_succ`), and the end belongs to exactly one of them, since the fractions
of neighbours are even and odd by turns (`closed_succ`).  So no decimal lies in two of them
(`eq_of_contains`).  The search for a decimal finds one in the interval, since decimals of 17
digits are closer to each other than the interval is wide (`shortest_contains`).  Hence
different numbers have different shortest decimals (`eq_of_value_shortest`). -/

namespace SmellWatch.Decimal

/-- The number that digits stand for. -/
def Digits.value (d : Digits) : ℚ := d.digits * (10 : ℚ) ^ d.exponent

namespace Interval

/-- A number lies in the interval. -/
def Contains (i : Interval) (x : ℚ) : Prop :=
  if i.closed then i.low ≤ x * i.den ∧ x * i.den ≤ i.high
  else i.low < x * i.den ∧ x * i.den < i.high

end Interval

variable {f : Format} {b c n num den order : Nat} {i : Interval} {x : ℚ}

/-! ## Powers as quotients -/

/-- A power with an integer for its exponent, as a quotient of two natural numbers. -/
theorem zpow_quotient (base : Nat) (hbase : 0 < base) (k : Int) :
    (0 ≤ k → (base : ℚ) ^ k = (Nat.pow base k.toNat : Nat)) ∧
      (k < 0 → (base : ℚ) ^ k * (Nat.pow base (-k).toNat : Nat) = 1) := by
  have hpos : (base : ℚ) ≠ 0 := by exact_mod_cast hbase.ne'
  refine ⟨fun h => ?_, fun h => ?_⟩
  · rw [Nat.pow_eq, Nat.cast_pow, ← zpow_natCast, Int.toNat_of_nonneg h]
  · rw [Nat.pow_eq, Nat.cast_pow, ← zpow_natCast, Int.toNat_of_nonneg (by omega),
      ← zpow_add₀ hpos]
    simp

/-- A natural number has so many decimal digits that it lies between two powers of ten. -/
theorem digitCount_spec (h : 0 < n) : 10 ^ (digitCount n - 1) ≤ n ∧ n < 10 ^ digitCount n := by
  have hcount : 0 < digitCount n := List.length_pos_of_ne_nil Nat.toDigits_ne_nil
  refine ⟨?_, (Nat.length_toDigits_le_iff (by decide) hcount).mp (Nat.le_refl _)⟩
  by_cases hone : digitCount n = 1
  · rw [hone]
    exact h
  · refine Nat.not_lt.mp fun hlt => ?_
    have hle : digitCount n ≤ digitCount n - 1 :=
      (Nat.length_toDigits_le_iff (by decide) (by omega)).mpr hlt
    omega

/-- The order of magnitude of a quotient does not go beyond it. -/
theorem decimalOrder_le (hnum : 0 < num) (hden : 0 < den) :
    (10 : ℚ) ^ decimalOrder num den ≤ num / den := by
  have hd : (0 : ℚ) < den := by exact_mod_cast hden
  rw [le_div_iff₀ hd]
  unfold decimalOrder
  split
  · rename_i hle
    have hq : 0 < num / den := Nat.div_pos hle hden
    have hpow : 10 ^ (digitCount (num / den) - 1) * den ≤ num :=
      (Nat.mul_le_mul_right den (digitCount_spec hq).1).trans (Nat.div_mul_le_self num den)
    have hcount : 0 < digitCount (num / den) := List.length_pos_of_ne_nil Nat.toDigits_ne_nil
    have hexponent : (digitCount (num / den) : Int) - 1 = (digitCount (num / den) - 1 : Nat) := by
      omega
    rw [hexponent, zpow_natCast]
    exact_mod_cast hpow
  · rename_i hlt
    have hq : 0 < den / num := Nat.div_pos (Nat.le_of_not_le hlt) hnum
    have hcount : 0 < digitCount (den / num) := List.length_pos_of_ne_nil Nat.toDigits_ne_nil
    dsimp only
    -- a power below one is told by its reciprocal
    have hreciprocal : ∀ k : Nat, den ≤ num * 10 ^ k → (10 : ℚ) ^ (-(k : Int)) * den ≤ num := by
      intro k hk
      have hcast : (den : ℚ) ≤ num * 10 ^ k := by exact_mod_cast hk
      rw [zpow_neg, zpow_natCast, inv_mul_le_iff₀ (by positivity)]
      linarith
    split
    · rename_i hle
      have hexponent : (1 : Int) - digitCount (den / num) =
          -((digitCount (den / num) - 1 : Nat) : Int) := by
        omega
      rw [hexponent]
      exact hreciprocal _ hle
    · refine hreciprocal _ ?_
      have hlt' := (digitCount_spec hq).2
      rw [Nat.div_lt_iff_lt_mul hnum] at hlt'
      rw [Nat.mul_comm]
      exact Nat.le_of_lt hlt'

/-! ## Decimals in an interval -/

namespace Interval

theorem holds_iff (i : Interval) (n : Nat) (k : Int) :
    i.holds n k = true ↔ i.Contains (n * (10 : ℚ) ^ k) := by
  obtain ⟨hnonneg, hneg⟩ := zpow_quotient 10 (by decide) k
  push_cast at hnonneg hneg
  -- both comparisons of `holds` are between the ends and this fraction `a / u`
  obtain ⟨a, u, hparts, hu, hscaled⟩ : ∃ a u : Nat,
      (if 0 ≤ k then (n * Nat.pow 10 k.toNat * i.den, 1) else
        (n * i.den, Nat.pow 10 (-k).toNat)) = (a, u) ∧ (0 : ℚ) < u ∧
      n * (10 : ℚ) ^ k * i.den * u = a := by
    by_cases hk : 0 ≤ k
    · refine ⟨_, _, if_pos hk, by norm_num, ?_⟩
      rw [hnonneg hk]
      push_cast
      ring
    · refine ⟨_, _, if_neg hk, ?_, ?_⟩
      · exact_mod_cast Nat.pow_pos (by decide : 0 < 10)
      · push_cast
        linear_combination (n * i.den : ℚ) * hneg (by omega)
  have hge : ∀ e : Nat, (e : ℚ) ≤ n * (10 : ℚ) ^ k * i.den ↔ e * u ≤ a := by
    intro e
    rw [← mul_le_mul_iff_left₀ hu, hscaled]
    norm_cast
  have hle : ∀ e : Nat, n * (10 : ℚ) ^ k * i.den ≤ e ↔ a ≤ e * u := by
    intro e
    rw [← mul_le_mul_iff_left₀ hu, hscaled]
    norm_cast
  unfold holds Contains
  rw [hparts]
  dsimp only
  by_cases hclosed : i.closed = true
  · simp only [hclosed, if_true, Bool.and_eq_true, decide_eq_true_eq, hge, hle]
  · simp only [hclosed, if_false, Bool.and_eq_true, decide_eq_true_eq, Bool.false_eq_true,
      ← not_le, hge, hle]

/-- A decimal that is picked lies in the interval. -/
theorem contains_of_nearest? {order : Int} {count : Nat} {d : Digits}
    (h : i.nearest? order count = some d) : i.Contains d.value := by
  have hpick : ∀ n k, d = ⟨n, k⟩ → i.holds n k = true → i.Contains d.value := by
    rintro n k rfl hholds
    exact (i.holds_iff n k).mp hholds
  unfold nearest? at h
  dsimp only at h
  generalize (if 0 ≤ order - (count : Int) + 1 then
    (i.mid, i.den * Nat.pow 10 (order - count + 1).toNat) else
    (i.mid * Nat.pow 10 (-(order - count + 1)).toNat, i.den)) = parts at h
  split at h
  · rename_i hboth
    rw [Bool.and_eq_true] at hboth
    split at h
    · exact hpick _ _ (Option.some.inj h).symm hboth.1
    · exact hpick _ _ (Option.some.inj h).symm hboth.2
  · split at h
    · rename_i hbelow
      exact hpick _ _ (Option.some.inj h).symm hbelow
    · split at h
      · rename_i habove
        exact hpick _ _ (Option.some.inj h).symm habove
      · cases h

/-- If no decimal of a length is picked, the next one above the middle is not in the
interval. -/
theorem not_contains_of_nearest? {order : Int} {count : Nat} (hden : 0 < i.den)
    (h : i.nearest? order count = none) :
    ∃ n : Nat, (n : ℚ) * 10 ^ (order - count + 1) ≤ i.mid / i.den ∧
      i.mid / i.den < (n + 1 : ℚ) * 10 ^ (order - count + 1) ∧
      ¬ i.Contains ((n + 1 : ℚ) * 10 ^ (order - count + 1)) := by
  unfold nearest? at h
  dsimp only at h
  generalize hk : order - (count : Int) + 1 = k at h ⊢
  obtain ⟨hnonneg, hneg⟩ := zpow_quotient 10 (by decide) k
  push_cast at hnonneg hneg
  have hdenpos : (0 : ℚ) < i.den := by exact_mod_cast hden
  have hten : (0 : ℚ) < 10 ^ k := zpow_pos (by norm_num) k
  obtain ⟨a, b, hparts, hb, hquotient⟩ : ∃ a b : Nat,
      (if 0 ≤ k then (i.mid, i.den * Nat.pow 10 k.toNat) else
        (i.mid * Nat.pow 10 (-k).toNat, i.den)) = (a, b) ∧ 0 < b ∧
      (i.mid : ℚ) * b = a * (10 ^ k * i.den) := by
    by_cases hsign : 0 ≤ k
    · refine ⟨_, _, if_pos hsign, Nat.mul_pos hden (Nat.pow_pos (by decide)), ?_⟩
      rw [hnonneg hsign]
      push_cast
      ring
    · refine ⟨_, _, if_neg hsign, hden, ?_⟩
      push_cast
      linear_combination -(i.mid * i.den : ℚ) * hneg (by omega)
  rw [hparts] at h
  dsimp only at h
  have hbpos : (0 : ℚ) < b := by exact_mod_cast hb
  refine ⟨a / b, ?_, ?_, ?_⟩
  · have hfloor : ((a / b : Nat) : ℚ) * b ≤ a := by exact_mod_cast Nat.div_mul_le_self a b
    rw [le_div_iff₀ hdenpos, ← mul_le_mul_iff_left₀ hbpos, hquotient]
    calc ((a / b : Nat) : ℚ) * 10 ^ k * i.den * b
        = ((a / b : Nat) : ℚ) * b * (10 ^ k * i.den) := by ring
      _ ≤ a * (10 ^ k * i.den) := by gcongr
  · have hfloor : (a : ℚ) < ((a / b : Nat) + 1 : ℚ) * b := by
      exact_mod_cast Nat.lt_mul_of_div_lt (Nat.lt_succ_self (a / b)) hb
    rw [div_lt_iff₀ hdenpos, ← mul_lt_mul_iff_left₀ hbpos, hquotient]
    calc (a : ℚ) * (10 ^ k * i.den)
        < ((a / b : Nat) + 1 : ℚ) * b * (10 ^ k * i.den) := by gcongr
      _ = ((a / b : Nat) + 1 : ℚ) * 10 ^ k * i.den * b := by ring
  · intro hcontains
    have habove : i.holds (a / b + 1) k = true := by
      rw [holds_iff]
      push_cast
      exact hcontains
    simp only [habove, Bool.and_true, if_true] at h
    split at h
    · split at h <;> cases h
    · cases h

/-- The search finds a decimal in the interval if there is one of one of the lengths that it
tries. -/
theorem contains_search {order : Int} (fuel count : Nat)
    (h : ∃ m, count ≤ m ∧ m < count + fuel ∧ i.nearest? order m ≠ none) :
    i.Contains (i.search order fuel count).value := by
  induction fuel generalizing count with
  | zero =>
    obtain ⟨m, hle, hlt, -⟩ := h
    omega
  | succ fuel ih =>
    unfold search
    cases hfound : i.nearest? order count with
    | some d => exact contains_of_nearest? hfound
    | none =>
      obtain ⟨m, hle, hlt, hm⟩ := h
      refine ih (count + 1) ⟨m, ?_, by omega, hm⟩
      have hne : m ≠ count := by
        rintro rfl
        exact hm hfound
      omega

end Interval

/-- Zeros that go into the exponent leave the number. -/
theorem Digits.value_normal (d : Digits) (fuel : Nat) : (d.normal fuel).value = d.value := by
  induction fuel generalizing d with
  | zero => rfl
  | succ fuel ih =>
    unfold Digits.normal
    split
    · rename_i h
      rw [ih]
      have hdigits : (d.digits : ℚ) = (d.digits / 10 : Nat) * 10 := by
        exact_mod_cast (Nat.div_mul_cancel (Nat.dvd_of_mod_eq_zero h.1)).symm
      unfold value
      rw [hdigits, zpow_add₀ (by norm_num), zpow_one]
      ring
    · rfl

/-! ## The intervals of a format -/

/-- The numbers with these bits and with the next ones: one more of the same unit, or the
first of the doubled unit. -/
theorem magnitude_succ (f : Format) (h : b + 1 < f.signBit) :
    ((f.magnitude (b + 1)).1 = (f.magnitude b).1 + 1 ∧
        (f.magnitude (b + 1)).2 = (f.magnitude b).2 ∧
        ((f.magnitude (b + 1)).1 = 2 ^ f.fraction →
          (f.magnitude (b + 1)).2 = f.leastExponent)) ∨
      ((f.magnitude b).1 + 1 = 2 * 2 ^ f.fraction ∧
        (f.magnitude (b + 1)).1 = 2 ^ f.fraction ∧
        (f.magnitude (b + 1)).2 = (f.magnitude b).2 + 1 ∧
        f.leastExponent < (f.magnitude (b + 1)).2) := by
  have hP : 0 < 2 ^ f.fraction := Nat.two_pow_pos _
  have hb : b < f.signBit := by omega
  unfold Format.magnitude
  dsimp only
  rw [Nat.mod_eq_of_lt h, Nat.mod_eq_of_lt hb]
  simp only [Nat.pow_eq]
  generalize 2 ^ f.fraction = P at hP ⊢
  have hrest := Nat.mod_lt b hP
  obtain ⟨q, r, hq, hr, hsum⟩ : ∃ q r, b / P = q ∧ b % P = r ∧ P * q + r = b :=
    ⟨_, _, rfl, rfl, Nat.div_add_mod b P⟩
  rw [hr] at hrest
  rw [hq, hr]
  by_cases hcarry : r + 1 < P
  · have hsucc : b + 1 = P * q + (r + 1) := by omega
    rw [hsucc, Nat.mul_add_div hP, Nat.mul_add_mod, Nat.div_eq_of_lt hcarry,
      Nat.mod_eq_of_lt hcarry, Nat.add_zero]
    left
    by_cases hzero : q = 0
    · subst hzero
      exact ⟨by simp; omega, rfl, fun _ => rfl⟩
    · rw [if_neg hzero, if_neg hzero]
      exact ⟨by omega, rfl, fun heq => by dsimp only at heq; omega⟩
  · have hsucc : b + 1 = P * (q + 1) := by
      rw [Nat.mul_add, Nat.mul_one]
      omega
    rw [hsucc, Nat.mul_div_cancel_left _ hP, Nat.mul_mod_right, if_neg (Nat.succ_ne_zero q)]
    by_cases hzero : q = 0
    · subst hzero
      left
      refine ⟨?_, ?_, fun _ => ?_⟩ <;> (simp; try omega)
    · rw [if_neg hzero]
      right
      refine ⟨?_, ?_, ?_, ?_⟩ <;> dsimp only <;> omega

/-- What an interval is made of: the number `m * 2 ^ e` in the middle, half a unit above it,
and half a unit below it or a quarter. -/
theorem ofBits_spec (f : Format) (b : Nat) :
    ∃ up den : Nat, 0 < up ∧ 0 < den ∧ (up : ℚ) = 2 ^ (f.magnitude b).2 * den ∧
      Interval.ofBits f b =
        { low := (4 * (f.magnitude b).1 -
            if (f.magnitude b).1 = 2 ^ f.fraction ∧ f.leastExponent < (f.magnitude b).2
            then 1 else 2) * up
          mid := 4 * (f.magnitude b).1 * up
          high := (4 * (f.magnitude b).1 + 2) * up
          den := 4 * den
          closed := (f.magnitude b).1 % 2 = 0 } := by
  unfold Interval.ofBits
  obtain ⟨m, e⟩ := f.magnitude b
  obtain ⟨hnonneg, hneg⟩ := zpow_quotient 2 (by decide) e
  push_cast at hnonneg hneg
  dsimp only
  by_cases he : 0 ≤ e
  · refine ⟨Nat.pow 2 e.toNat, 1, Nat.pow_pos (by decide), Nat.one_pos, ?_, ?_⟩
    · rw [hnonneg he]
      push_cast
      ring
    · rw [if_pos he]
      simp only [Nat.pow_eq]
  · refine ⟨1, Nat.pow 2 (-e).toNat, Nat.one_pos, Nat.pow_pos (by decide), ?_, ?_⟩
    · exact_mod_cast (hneg (by omega)).symm
    · rw [if_neg he]
      simp only [Nat.pow_eq]

namespace Interval

/-- The lower and the upper end of an interval. -/
def lowEnd (i : Interval) : ℚ := i.low / i.den

def highEnd (i : Interval) : ℚ := i.high / i.den

theorem contains_iff (hden : 0 < i.den) : i.Contains x ↔
    if i.closed then i.lowEnd ≤ x ∧ x ≤ i.highEnd else i.lowEnd < x ∧ x < i.highEnd := by
  have hd : (0 : ℚ) < i.den := by exact_mod_cast hden
  unfold Contains lowEnd highEnd
  rw [div_le_iff₀ hd, le_div_iff₀ hd, div_lt_iff₀ hd, lt_div_iff₀ hd]

theorem Contains.between (hden : 0 < i.den) (h : i.Contains x) :
    i.lowEnd ≤ x ∧ x ≤ i.highEnd := by
  rw [contains_iff hden] at h
  split at h
  · exact h
  · exact ⟨h.1.le, h.2.le⟩

theorem contains_of_inside (hden : 0 < i.den) (hlow : i.lowEnd < x) (hhigh : x < i.highEnd) :
    i.Contains x := by
  rw [contains_iff hden]
  split
  · exact ⟨hlow.le, hhigh.le⟩
  · exact ⟨hlow, hhigh⟩

end Interval

theorem den_ofBits_pos (f : Format) (b : Nat) : 0 < (Interval.ofBits f b).den := by
  obtain ⟨up, den, -, hden, -, hi⟩ := ofBits_spec f b
  rw [hi]
  exact Nat.mul_pos (by decide) hden

theorem highEnd_ofBits (f : Format) (b : Nat) :
    (Interval.ofBits f b).highEnd =
      (4 * (f.magnitude b).1 + 2) * 2 ^ (f.magnitude b).2 / 4 := by
  obtain ⟨up, den, -, hden, hup, hi⟩ := ofBits_spec f b
  have hd : (den : ℚ) ≠ 0 := by exact_mod_cast hden.ne'
  rw [hi, Interval.highEnd]
  push_cast
  rw [hup]
  field_simp

theorem lowEnd_ofBits (f : Format) (b : Nat) :
    (Interval.ofBits f b).lowEnd =
      ((4 * (f.magnitude b).1 -
        if (f.magnitude b).1 = 2 ^ f.fraction ∧ f.leastExponent < (f.magnitude b).2
        then 1 else 2 : Nat) : ℚ) * 2 ^ (f.magnitude b).2 / 4 := by
  obtain ⟨up, den, -, hden, hup, hi⟩ := ofBits_spec f b
  have hd : (den : ℚ) ≠ 0 := by exact_mod_cast hden.ne'
  rw [hi, Interval.lowEnd]
  push_cast
  rw [hup]
  field_simp

theorem middle_ofBits (f : Format) (b : Nat) :
    ((Interval.ofBits f b).mid : ℚ) / (Interval.ofBits f b).den =
      (f.magnitude b).1 * 2 ^ (f.magnitude b).2 := by
  obtain ⟨up, den, -, hden, hup, hi⟩ := ofBits_spec f b
  have hd : (den : ℚ) ≠ 0 := by exact_mod_cast hden.ne'
  rw [hi]
  push_cast
  rw [hup]
  field_simp

/-- Where an interval ends the next begins. -/
theorem highEnd_eq_lowEnd_succ (h : b + 1 < f.signBit) :
    (Interval.ofBits f b).highEnd = (Interval.ofBits f (b + 1)).lowEnd := by
  rw [highEnd_ofBits, lowEnd_ofBits]
  rcases magnitude_succ f h with ⟨hm, he, hpower⟩ | ⟨hfull, hm, he, hnarrow⟩
  · rw [if_neg fun hboth => absurd (hpower hboth.1) (ne_of_gt hboth.2), hm, he]
    have hsub : 4 * ((f.magnitude b).1 + 1) - 2 = 4 * (f.magnitude b).1 + 2 := by omega
    rw [hsub]
    push_cast
    ring
  · rw [if_pos ⟨hm, hnarrow⟩, hm, he, zpow_add₀ (by norm_num), zpow_one]
    have hsub : ((4 * 2 ^ f.fraction - 1 : Nat) : ℚ) * 2 = 4 * (f.magnitude b).1 + 2 := by
      have hP := Nat.two_pow_pos f.fraction
      have hnat : (4 * 2 ^ f.fraction - 1) * 2 = 4 * (f.magnitude b).1 + 2 := by omega
      exact_mod_cast hnat
    rw [← hsub]
    ring

/-- Of two neighbours exactly one has an even fraction. -/
theorem closed_succ (hfraction : 0 < f.fraction) (h : b + 1 < f.signBit) :
    (Interval.ofBits f (b + 1)).closed = !(Interval.ofBits f b).closed := by
  have hclosed : ∀ a, (Interval.ofBits f a).closed = decide ((f.magnitude a).1 % 2 = 0) :=
    fun _ => rfl
  rw [hclosed, hclosed, ← decide_not, decide_eq_decide]
  rcases magnitude_succ f h with ⟨hm, -, -⟩ | ⟨hfull, hm, -, -⟩
  · rw [hm]
    omega
  · obtain ⟨k, hk⟩ := Nat.exists_eq_add_of_lt hfraction
    have heven : 2 ^ f.fraction % 2 = 0 := by
      rw [hk, Nat.pow_succ, Nat.mul_mod_left]
    rw [hm]
    omega

/-- An interval is not empty. -/
theorem lowEnd_lt_highEnd (f : Format) (b : Nat) :
    (Interval.ofBits f b).lowEnd < (Interval.ofBits f b).highEnd := by
  rw [lowEnd_ofBits, highEnd_ofBits]
  have hpow : (0 : ℚ) < 2 ^ (f.magnitude b).2 := zpow_pos (by norm_num) _
  have hlt : ∀ k : Nat, ((4 * (f.magnitude b).1 - k : Nat) : ℚ) < 4 * (f.magnitude b).1 + 2 := by
    intro k
    have hnat : 4 * (f.magnitude b).1 - k < 4 * (f.magnitude b).1 + 2 := by omega
    exact_mod_cast hnat
  have := mul_lt_mul_of_pos_right (hlt (if (f.magnitude b).1 = 2 ^ f.fraction ∧
    f.leastExponent < (f.magnitude b).2 then 1 else 2)) hpow
  linarith

/-- Intervals are in the order of their numbers. -/
theorem highEnd_le_lowEnd (h : b < c) (hc : c < f.signBit) :
    (Interval.ofBits f b).highEnd ≤ (Interval.ofBits f c).lowEnd := by
  induction c, h using Nat.le_induction with
  | base => exact (highEnd_eq_lowEnd_succ hc).le
  | succ c hle ih =>
    exact (ih (by omega)).trans
      ((lowEnd_lt_highEnd f c).le.trans (highEnd_eq_lowEnd_succ hc).le)

theorem not_contains_of_lt (hfraction : 0 < f.fraction) (h : b < c) (hc : c < f.signBit)
    (hb : (Interval.ofBits f b).Contains x) : ¬ (Interval.ofBits f c).Contains x := by
  intro hcontains
  have hbelow := (hb.between (den_ofBits_pos f b)).2
  have habove := (hcontains.between (den_ofBits_pos f c)).1
  rcases Nat.eq_or_lt_of_le h with rfl | hfar
  · -- the common end of two neighbours belongs to one of them
    have hend := highEnd_eq_lowEnd_succ hc
    rw [Interval.contains_iff (den_ofBits_pos f b)] at hb
    rw [Interval.contains_iff (den_ofBits_pos f (b + 1)), closed_succ hfraction hc] at hcontains
    cases hclosed : (Interval.ofBits f b).closed with
    | true =>
      rw [hclosed] at hcontains
      have := hcontains.1
      linarith
    | false =>
      rw [hclosed] at hb
      have := hb.2
      linarith
  · have hnext := highEnd_eq_lowEnd_succ (f := f) (b := b) (by omega)
    have hwide := lowEnd_lt_highEnd f (b + 1)
    have hrest := highEnd_le_lowEnd (f := f) hfar hc
    linarith

/-- No number lies in the intervals of two numbers of a format. -/
theorem eq_of_contains (hfraction : 0 < f.fraction) (hb : b < f.signBit) (hc : c < f.signBit)
    (hinb : (Interval.ofBits f b).Contains x) (hinc : (Interval.ofBits f c).Contains x) :
    b = c := by
  rcases Nat.lt_trichotomy b c with hlt | heq | hgt
  · exact absurd hinc (not_contains_of_lt hfraction hlt hc hinb)
  · exact heq
  · exact absurd hinb (not_contains_of_lt hfraction hgt hb hinc)

/-! ## Shortest decimals -/

theorem magnitude_pos (h : 0 < b) (hb : b < f.signBit) :
    0 < (f.magnitude b).1 ∧ (f.magnitude b).1 < 2 * 2 ^ f.fraction := by
  have hP : 0 < 2 ^ f.fraction := Nat.two_pow_pos _
  unfold Format.magnitude
  dsimp only
  rw [Nat.mod_eq_of_lt hb]
  simp only [Nat.pow_eq]
  split
  · rename_i hstored
    have := (Nat.div_eq_zero_iff_lt hP).mp hstored
    exact ⟨h, by dsimp only; omega⟩
  · have := Nat.mod_lt b hP
    dsimp only
    omega

/-- A format in which decimals of 17 digits are closer to each other than the numbers. -/
def Format.IsNarrow (f : Format) : Prop := 0 < f.fraction ∧ 4 * 2 ^ f.fraction < 10 ^ 16

theorem isNarrow_single : Format.single.IsNarrow := by
  unfold Format.IsNarrow
  decide

/-- The shortest decimal of a number lies in its interval. -/
theorem shortest_contains (hf : f.IsNarrow) (hpos : 0 < b) (hb : b < f.signBit) :
    (Interval.ofBits f b).Contains (shortest f b).value := by
  obtain ⟨hm, hlarge⟩ := magnitude_pos hpos hb
  have hden := den_ofBits_pos f b
  have hunit : (0 : ℚ) < 2 ^ (f.magnitude b).2 := zpow_pos (by norm_num) _
  have hmid : 0 < (Interval.ofBits f b).mid := by
    obtain ⟨up, den, hup, -, -, hi⟩ := ofBits_spec f b
    rw [hi]
    exact Nat.mul_pos (by omega) hup
  have horder := decimalOrder_le hmid hden
  unfold shortest
  dsimp only
  rw [Digits.value_normal]
  refine Interval.contains_search 17 1 ⟨17, by decide, by decide, fun hnone => ?_⟩
  obtain ⟨n, hbelow, habove, hout⟩ := Interval.not_contains_of_nearest? hden hnone
  generalize decimalOrder (Interval.ofBits f b).mid (Interval.ofBits f b).den = order at *
  rw [middle_ofBits] at horder hbelow habove
  -- two decimals of 17 digits are less than half a unit apart
  have hstep : (10 : ℚ) ^ (order - (17 : Nat) + 1) < 2 ^ (f.magnitude b).2 / 2 := by
    have hscale : (10 : ℚ) ^ (order - (17 : Nat) + 1) * 10 ^ 16 = 10 ^ order := by
      rw [← zpow_natCast, ← zpow_add₀ (by norm_num)]
      congr 1
      push_cast
      ring
    have hcount : ((f.magnitude b).1 : ℚ) * 2 < 10 ^ 16 := by
      have hnat : (f.magnitude b).1 * 2 < 10 ^ 16 := by
        have := hf.2
        omega
      exact_mod_cast hnat
    generalize (10 : ℚ) ^ (order - (17 : Nat) + 1) = t at hscale ⊢
    generalize (2 : ℚ) ^ (f.magnitude b).2 = u at horder hunit ⊢
    nlinarith
  generalize (10 : ℚ) ^ (order - (17 : Nat) + 1) = t at hstep hbelow habove hout
  refine hout (Interval.contains_of_inside hden ?_ ?_)
  · refine lt_of_le_of_lt ?_ habove
    have hsub : ∀ k : Nat, ((4 * (f.magnitude b).1 - k : Nat) : ℚ) ≤ 4 * (f.magnitude b).1 := by
      intro k
      exact_mod_cast Nat.sub_le _ _
    rw [lowEnd_ofBits]
    have := mul_le_mul_of_nonneg_right (hsub (if (f.magnitude b).1 = 2 ^ f.fraction ∧
      f.leastExponent < (f.magnitude b).2 then 1 else 2)) hunit.le
    linarith
  · rw [highEnd_ofBits]
    linarith

/-- Numbers with one shortest decimal are the same. -/
theorem eq_of_value_shortest (hf : f.IsNarrow) (hb : 0 < b) (hb' : b < f.signBit) (hc : 0 < c)
    (hc' : c < f.signBit) (h : (shortest f b).value = (shortest f c).value) : b = c :=
  eq_of_contains hf.1 hb' hc' (shortest_contains hf hb hb') (h ▸ shortest_contains hf hc hc')

/-- The shortest decimal of a number that is not zero is not zero. -/
theorem value_shortest_pos (hf : f.IsNarrow) (hpos : 0 < b) (hb : b < f.signBit) :
    0 < (shortest f b).value := by
  refine lt_of_lt_of_le ?_ ((shortest_contains hf hpos hb).between (den_ofBits_pos f b)).1
  obtain ⟨hm, -⟩ := magnitude_pos hpos hb
  have hunit : (0 : ℚ) < 2 ^ (f.magnitude b).2 := zpow_pos (by norm_num) _
  have hsome : 0 < 4 * (f.magnitude b).1 - if (f.magnitude b).1 = 2 ^ f.fraction ∧
      f.leastExponent < (f.magnitude b).2 then 1 else 2 := by
    split <;> omega
  rw [lowEnd_ofBits]
  have hcast : (0 : ℚ) < (4 * (f.magnitude b).1 - if (f.magnitude b).1 = 2 ^ f.fraction ∧
      f.leastExponent < (f.magnitude b).2 then 1 else 2 : Nat) := by
    exact_mod_cast hsome
  positivity

end SmellWatch.Decimal
