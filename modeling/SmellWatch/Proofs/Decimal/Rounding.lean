import SmellWatch.Proofs.Decimal.Widening
/-! Rounding keeps order.

Bits below the sign are so many units and a unit (`exists_pack`), and rounding counts whole units.
So what is at least a number of the format is rounded to that number or a greater one
(`le_round`), and what is at most one is not rounded beyond it (`round_le`). -/

namespace SmellWatch.Decimal.Format

variable {f : Format} {b n num den : Nat}

/-- The bits taken apart into a unit and how many of them there are, as `value_pack` puts them
together. -/
theorem exists_pack (f : Format) (b : Nat) :
    ∃ j m, b = j * 2 ^ f.fraction + m ∧ m < 2 * 2 ^ f.fraction ∧ (j = 0 ∨ 2 ^ f.fraction ≤ m) := by
  have hpos : 0 < 2 ^ f.fraction := Nat.two_pow_pos _
  have hsplit := Nat.div_add_mod' b (2 ^ f.fraction)
  have hrest := Nat.mod_lt b hpos
  cases hstored : b / 2 ^ f.fraction with
  | zero =>
    refine ⟨0, b, by omega, ?_, .inl rfl⟩
    rw [hstored] at hsplit
    omega
  | succ j =>
    refine ⟨j, b % 2 ^ f.fraction + 2 ^ f.fraction, ?_, by omega, .inr (by omega)⟩
    rw [hstored, Nat.succ_mul] at hsplit
    omega

theorem round_le_infinity (f : Format) (num den : Nat) : f.round num den ≤ f.infinity := by
  unfold round
  split
  · exact Nat.zero_le _
  · exact Nat.min_le_right _ _

/-! ## Whole numbers -/

theorem le_divideEven (hden : 0 < den) (h : (n : ℚ) ≤ num / den) : n ≤ divideEven num den := by
  have hwhole : n ≤ num / den := by
    rw [Nat.le_div_iff_mul_le hden]
    rw [le_div_iff₀ (by exact_mod_cast hden)] at h
    exact_mod_cast h
  unfold divideEven
  dsimp only
  split <;> omega

theorem divideEven_le (hden : 0 < den) (h : (num / den : ℚ) ≤ n) : divideEven num den ≤ n := by
  have hwhole : num ≤ n * den := by
    rw [div_le_iff₀ (by exact_mod_cast hden)] at h
    exact_mod_cast h
  have hsplit := Nat.div_add_mod' num den
  have hfloor : num / den ≤ n := Nat.div_le_of_le_mul (by rwa [Nat.mul_comm] at hwhole)
  unfold divideEven
  dsimp only
  split
  · -- rounded up there is a rest, and so a whole one to go
    rename_i hup
    have hrest : 0 < num % den := by omega
    refine Nat.lt_of_le_of_ne hfloor fun heq => ?_
    rw [heq] at hsplit
    omega
  · exact hfloor

/-! ## Numbers of a format -/

/-- What rounding counts: `k` units with the exponent `e`, where `k` keeps to the whole numbers
below and above the quotient. -/
theorem exists_round_eq (f : Format) (hnum : 0 < num) (hden : 0 < den) :
    ∃ (j k : Nat), f.round num den = min (j * 2 ^ f.fraction + k) f.infinity ∧
      (num / den : ℚ) < 2 ^ (f.leastExponent + j + f.fraction + 1) ∧
      (0 < j → (2 : ℚ) ^ (f.leastExponent + j + f.fraction) ≤ num / den) ∧
      (∀ n : Nat, n * 2 ^ (f.leastExponent + j) ≤ (num / den : ℚ) → n ≤ k) ∧
      ∀ n : Nat, (num / den : ℚ) ≤ n * 2 ^ (f.leastExponent + j) → k ≤ n := by
  obtain ⟨hleast, hceil, hfloor⟩ := unitExponent_spec f hnum hden
  obtain ⟨j, hj⟩ : ∃ j : Nat, f.unitExponent num den = f.leastExponent + j :=
    ⟨(f.unitExponent num den - f.leastExponent).toNat, by omega⟩
  obtain ⟨hd, hscaled⟩ := scaled_spec hden num (f.unitExponent num den)
  have hround := round_eq f hnum hden
  rw [hj] at hceil hfloor hd hscaled hround
  have hunits : (f.leastExponent + j - f.leastExponent).toNat = j := by omega
  have hpow : (0 : ℚ) < 2 ^ (f.leastExponent + (j : Int)) := zpow_pos two_pos _
  rw [hunits] at hround
  refine ⟨j, _, hround, hceil, fun hpos => hfloor (by omega), fun n hn => ?_, fun n hn => ?_⟩
  · rw [← hscaled] at hn
    exact le_divideEven hd (le_of_mul_le_mul_right hn hpow)
  · rw [← hscaled] at hn
    exact divideEven_le hd (le_of_mul_le_mul_right hn hpow)

theorem zpow_add_fraction (e : Int) (n : Nat) : (2 : ℚ) ^ (e + n) = 2 ^ n * 2 ^ e := by
  rw [zpow_add₀ two_ne_zero, zpow_natCast, mul_comm]

theorem zpow_add_fraction_succ (e : Int) (n : Nat) :
    (2 : ℚ) ^ (e + n + 1) = 2 * 2 ^ n * 2 ^ e := by
  rw [zpow_add_one₀ two_ne_zero, zpow_add_fraction]
  ring

theorem lt_of_zpow_lt {a b : Int} (h : (2 : ℚ) ^ a < 2 ^ b) : a < b :=
  (zpow_lt_zpow_iff_right₀ one_lt_two).mp h

/-- What is at least a number of the format is not rounded below it. -/
theorem le_round (hden : 0 < den) (hb : b ≤ f.infinity) (h : f.value b ≤ num / den) :
    b ≤ f.round num den := by
  obtain ⟨i, m, rfl, hm, hi⟩ := exists_pack f b
  rw [value_pack hm hi (hb.trans_lt f.infinity_lt_signBit)] at h
  have hpos : 0 < 2 ^ f.fraction := Nat.two_pow_pos _
  have hunit : (0 : ℚ) < 2 ^ (f.leastExponent + (i : Int)) := zpow_pos two_pos _
  rcases Nat.eq_zero_or_pos num with rfl | hnum
  · -- nothing is at most zero but zero itself
    have hzero : (m : ℚ) ≤ 0 := by
      rw [Nat.cast_zero, zero_div] at h
      exact nonpos_of_mul_nonpos_left h hunit
    have hm0 : m = 0 := by exact_mod_cast le_antisymm hzero (Nat.cast_nonneg m)
    have hi0 : i = 0 := by omega
    subst hm0 hi0
    omega
  · obtain ⟨j, k, hround, hceil, hfloor, hlow, -⟩ := exists_round_eq f hnum hden
    rw [hround]
    refine le_min ?_ hb
    have hij : i ≤ j := by
      rcases hi with rfl | hfull
      · exact Nat.zero_le j
      · have hcast : (2 : ℚ) ^ f.fraction ≤ m := by exact_mod_cast hfull
        have hlt : (2 : ℚ) ^ (f.leastExponent + i + f.fraction) <
            2 ^ (f.leastExponent + j + f.fraction + 1) := by
          refine lt_of_le_of_lt ?_ (h.trans_lt hceil)
          rw [zpow_add_fraction]
          exact mul_le_mul_of_nonneg_right hcast hunit.le
        have := lt_of_zpow_lt hlt
        omega
    rcases Nat.eq_or_lt_of_le hij with rfl | hlt
    · have := hlow m h
      omega
    · have hk : 2 ^ f.fraction ≤ k := by
        refine hlow _ ?_
        have hfull := hfloor (by omega)
        rw [zpow_add_fraction] at hfull
        push_cast
        exact hfull
      have hstep := Nat.mul_le_mul_right (2 ^ f.fraction) (Nat.succ_le_of_lt hlt)
      rw [Nat.succ_mul] at hstep
      omega

/-- What is at most a number of the format is not rounded beyond it. -/
theorem round_le (hden : 0 < den) (hb : b < f.signBit) (h : (num / den : ℚ) ≤ f.value b) :
    f.round num den ≤ b := by
  obtain ⟨i, m, rfl, hm, hi⟩ := exists_pack f b
  rw [value_pack hm hi hb] at h
  have hpos : 0 < 2 ^ f.fraction := Nat.two_pow_pos _
  rcases Nat.eq_zero_or_pos num with rfl | hnum
  · rw [show f.round 0 den = 0 from if_pos (.inl rfl)]
    exact Nat.zero_le _
  · obtain ⟨j, k, hround, hceil, hfloor, -, hhigh⟩ := exists_round_eq f hnum hden
    rw [hround]
    refine (min_le_left _ _).trans ?_
    have hji : j ≤ i := by
      rcases Nat.eq_zero_or_pos j with rfl | hjpos
      · exact Nat.zero_le i
      · have hcast : (m : ℚ) < 2 * 2 ^ f.fraction := by exact_mod_cast hm
        have hlt : (2 : ℚ) ^ (f.leastExponent + j + f.fraction) <
            2 ^ (f.leastExponent + i + f.fraction + 1) := by
          refine lt_of_le_of_lt (hfloor hjpos) (h.trans_lt ?_)
          rw [zpow_add_fraction_succ]
          exact mul_lt_mul_of_pos_right hcast (zpow_pos two_pos _)
        have := lt_of_zpow_lt hlt
        omega
    rcases Nat.eq_or_lt_of_le hji with rfl | hlt
    · have := hhigh m h
      omega
    · have hk : k ≤ 2 * 2 ^ f.fraction := by
        refine hhigh _ (hceil.le.trans_eq ?_)
        rw [zpow_add_fraction_succ]
        push_cast
        rfl
      have hfull : 2 ^ f.fraction ≤ m := hi.resolve_left (by omega)
      have hstep := Nat.mul_le_mul_right (2 ^ f.fraction) (Nat.succ_le_of_lt hlt)
      rw [Nat.succ_mul] at hstep
      omega

end SmellWatch.Decimal.Format
