import Mathlib
import SmellWatch.Pacing.TokenBucket
/-! Floats that are not negative, as they are rounded.

An amount is a float that is nothing, a positive number or more than any number (`IsAmount`).
Sums, products and quotients of amounts are rounded to amounts, and a number that is at least some
power of two to an amount that is at least this power (`AtLeast`).  And a sum is rounded by less
than a unit in its last place, so an amount that is far above it makes a difference
(`IsSum.more`). -/

namespace SmellWatch
namespace Floats
open Float.Model Float.Model.UnpackedFloat

variable {s : Sign} {m n : Nat} {e t : Int} {acc : Accuracy}

/-- A float, taken apart. -/
def parts (x : Float) : UnpackedFloat := x.toModel.unpack

/-- A number as it comes out of the float into which it was put. -/
def repack (u : UnpackedFloat) : UnpackedFloat := (Float.Model.pack u).unpack

/-- Mantissa and exponent as a float has them, unless the exponent is too large. -/
structure IsCanonical (m : Nat) (e : Int) : Prop where
  lt : m < 2 ^ 53
  le : -1074 ≤ e
  full : 2 ^ 52 ≤ m ∨ e = -1074

theorem sign_packComponents (s : Sign) (exponent : BitVec 11) (mantissa : BitVec 52) :
    Sign.ofBitVec (unpackSign (packComponents .binary64 s exponent mantissa)) = s := by
  rw [unpackSign_packComponents, Sign.ofBitVec_toBitVec]

theorem toNat_implicit (b : BitVec 52) : (1#1 ++ b).toNat = 2 ^ 52 + b.toNat := by
  rw [BitVec.toNat_append, ← Nat.shiftLeft_add_eq_or_of_lt b.isLt]
  rfl

theorem finite_congr {m n : Nat} {e t : Int} (hm : m = n) (he : e = t) (h : 0 < m) :
    UnpackedFloat.finite s m e h = .finite s n t (hm ▸ h) := by
  subst hm he
  rfl

theorem unpack_packComponents (s : Sign) (exponent : BitVec 11) (mantissa : BitVec 52) :
    UnpackedFloat.unpack .binary64 (packComponents .binary64 s exponent mantissa) =
      if exponent = -1#11 then if mantissa = 0#52 then .infinity s else .notANumber
      else if exponent = 0#11 then
        if h : mantissa = 0#52 then .zero s
        else .finite s mantissa.toNat (-1074)
          (Nat.pos_of_ne_zero fun hzero => h (BitVec.eq_of_toNat_eq hzero))
      else .finite s (2 ^ 52 + mantissa.toNat) (exponent.toNat - 1075) (by omega) := by
  have hbias : ((Format.binary64.exponentBias : Int) + (52 : Nat)) = 1075 := rfl
  unfold UnpackedFloat.unpack
  simp only [unpackMantissa_packComponents, unpackExponent_packComponents, sign_packComponents,
    toNat_implicit, hbias]
  by_cases hhigh : exponent = -1#11
  · rw [if_pos hhigh, if_pos hhigh]
  · rw [if_neg hhigh, if_neg hhigh]
    by_cases hlow : exponent = 0#11
    · rw [if_pos hlow, if_pos hlow]
      split
      · rfl
      · exact finite_congr rfl (by rw [hlow]; rfl) _
    · rw [if_neg hlow, if_neg hlow]

/-- What is put into a float comes out of it, unless it is too large. -/
theorem repack_finite (h : IsCanonical m e) (hpos : 0 < m) :
    repack (.finite s m e hpos) = if e ≤ 971 then .finite s m e hpos else .infinity s := by
  obtain ⟨hlt, hle, hfull⟩ := h
  obtain ⟨biased, hbiased⟩ : ∃ n : Nat, (e + 1023 + 52).toNat = n := ⟨_, rfl⟩
  have hpack : UnpackedFloat.pack .binary64 (.finite s m e hpos) =
      if 2 ^ 11 ≤ biased + 1 then packedInfinity .binary64 s
      else if m.log2 + 1 = 53 then packComponents .binary64 s (.ofNat 11 biased) (.ofNat 52 m)
      else packComponents .binary64 s 0#11 (.ofNat 52 m) := by
    rw [← hbiased]
    rfl
  show UnpackedFloat.unpack .binary64 (UnpackedFloat.pack .binary64 (.finite s m e hpos)) = _
  rw [hpack]
  by_cases hlarge : e ≤ 971
  · rw [if_pos hlarge, if_neg (by omega)]
    by_cases hnormal : 2 ^ 52 ≤ m
    · have hlog : m.log2 = 52 := (Nat.log2_eq_iff hpos.ne').mpr ⟨hnormal, hlt⟩
      have hexponent : (BitVec.ofNat 11 biased).toNat = biased := by
        rw [BitVec.toNat_ofNat, Nat.mod_eq_of_lt (by omega)]
      have hlow : BitVec.ofNat 11 biased ≠ 0#11 := by
        rw [ne_eq, ← BitVec.toNat_inj, hexponent, BitVec.toNat_zero]
        omega
      have hhigh : BitVec.ofNat 11 biased ≠ -1#11 := by
        rw [ne_eq, ← BitVec.toNat_inj, hexponent]
        show biased ≠ 2047
        omega
      rw [if_pos (by omega), unpack_packComponents, if_neg hhigh, if_neg hlow]
      refine finite_congr ?_ ?_ _
      · rw [BitVec.toNat_ofNat]
        omega
      · rw [hexponent]
        omega
    · have hlog : ¬ m.log2 + 1 = 53 := by
        have := (Nat.log2_lt hpos.ne').mpr (Nat.lt_of_not_le hnormal)
        omega
      have hmantissa : (BitVec.ofNat 52 m).toNat = m := by
        rw [BitVec.toNat_ofNat, Nat.mod_eq_of_lt (by omega)]
      have hsome : BitVec.ofNat 52 m ≠ 0#52 := by
        rw [ne_eq, ← BitVec.toNat_inj, hmantissa, BitVec.toNat_zero]
        omega
      rw [if_neg hlog, unpack_packComponents, if_neg (by decide), if_pos rfl, dif_neg hsome]
      exact finite_congr hmantissa (by omega) _
  · rw [if_neg hlarge, if_pos (by omega)]
    cases s <;> rfl

/-! ## Rounding -/

/-- Where the first digit of a number is. -/
def top (m : Nat) (e : Int) : Int := m.log2 + e

/-- Where the last digit is of a float whose first one is there. -/
def grid (t : Int) : Int := max (t - 52) (-1074)

theorem targetExponent_eq (m : Nat) (e : Int) :
    Format.binary64.targetExponent (totalExponent m e) = grid (top m e) := by
  have hmin : Format.binary64.minExponent = -1074 := rfl
  have hbits : (Format.binary64.mantissaBits : Int) = 53 := rfl
  unfold Format.targetExponent totalExponent grid top
  rw [hmin, hbits]
  omega

theorem mantissa_shiftRight (em : ExtendedMantissa) (n : Nat) :
    (em >>> n).mantissa = em.mantissa / 2 ^ n := by
  induction n with
  | zero => simp [HShiftRight.hShiftRight, Nat.repeat]
  | succ n ih =>
    show (em >>> n).mantissa / 2 = _
    rw [ih, Nat.div_div_eq_div_mul, pow_succ]

theorem mantissa_ofMantissaAndAccuracy (m : Nat) (acc : Accuracy) :
    (ExtendedMantissa.ofMantissaAndAccuracy m acc).mantissa = m := by
  unfold ExtendedMantissa.ofMantissaAndAccuracy
  split <;> rfl

theorem roundedMantissa_bounds (em : ExtendedMantissa) :
    em.mantissa ≤ em.roundedMantissa ∧ em.roundedMantissa ≤ em.mantissa + 1 := by
  unfold ExtendedMantissa.roundedMantissa Accuracy.roundToNearestEven
  split <;> omega

/-- What is left when the digits behind the grid are cut off. -/
def cut (m : Nat) (e : Int) : Nat := m / 2 ^ (grid (top m e) - e).toNat

theorem cut_lt (m : Nat) (e : Int) : cut m e < 2 ^ 53 := by
  unfold cut
  rw [Nat.div_lt_iff_lt_mul (Nat.two_pow_pos _), ← pow_add]
  refine Nat.lt_log2_self.trans_le (Nat.pow_le_pow_right Nat.two_pos ?_)
  unfold grid top
  omega

theorem cut_full (he : e ≤ grid (top m e)) : 2 ^ 52 ≤ cut m e ∨ grid (top m e) = -1074 := by
  refine or_iff_not_imp_right.mpr fun hg => ?_
  have hm : m ≠ 0 := by
    rintro rfl
    unfold grid top at *
    rw [Nat.log2_zero] at *
    omega
  unfold cut
  rw [Nat.le_div_iff_mul_le (Nat.two_pow_pos _), ← pow_add]
  refine (Nat.pow_le_pow_right Nat.two_pos ?_).trans (Nat.log2_self_le hm)
  unfold grid top at *
  omega

/-- A number in canonical form stands for no less than another, which ends at `g`. -/
structure Reaches (q : Nat) (g : Int) (m : Nat) (e : Int) : Prop where
  canonical : IsCanonical m e
  behind : g ≤ e
  le : q ≤ m * 2 ^ (e - g).toNat

/-- A number with a mantissa that was rounded, and may have one digit too many by that. -/
def carried (s : Sign) (n : Nat) (g : Int) : UnpackedFloat :=
  if h : n / 2 ^ (grid (top n g) - g).toNat = 0 then .zero s
  else .finite s _ (g + (grid (top n g) - g).toNat) (Nat.pos_of_ne_zero h)

theorem roundWithAccuracy_eq (s : Sign) (acc : Accuracy) (he : e ≤ grid (top m e)) :
    ∃ n, cut m e ≤ n ∧ n ≤ cut m e + 1 ∧
      roundWithAccuracy .binary64 s m e acc = carried s n (grid (top m e)) := by
  have hshift : e + ((grid (top m e) - e).toNat : Int) = grid (top m e) := by omega
  obtain ⟨hlow, hhigh⟩ := roundedMantissa_bounds
    (ExtendedMantissa.ofMantissaAndAccuracy m acc >>> (grid (top m e) - e).toNat)
  rw [mantissa_shiftRight, mantissa_ofMantissaAndAccuracy] at hlow hhigh
  refine ⟨_, hlow, hhigh, ?_⟩
  unfold roundWithAccuracy shiftToTargetExponent shiftToExponent carried
  simp only [targetExponent_eq, hshift, mantissa_shiftRight, mantissa_ofMantissaAndAccuracy]

theorem carried_of_lt (hg : -1074 ≤ e) (hm : m < 2 ^ 53) :
    carried s m e = if h : m = 0 then .zero s else .finite s m e (Nat.pos_of_ne_zero h) := by
  have hlog : m.log2 ≤ 52 := by
    by_cases hzero : m = 0
    · rw [hzero]
      decide
    · exact Nat.lt_succ_iff.mp ((Nat.log2_lt hzero).mpr hm)
  have hsame : (grid (top m e) - e).toNat = 0 := by
    unfold grid top
    omega
  unfold carried
  simp only [hsame, pow_zero, Nat.div_one, Nat.cast_zero, add_zero]

theorem carried_of_eq (hg : -1074 ≤ e) :
    carried s (2 ^ 53) e = .finite s (2 ^ 52) (e + 1) (by decide) := by
  have hlog : (2 ^ 53 : Nat).log2 = 53 := Nat.log2_two_pow
  have hone : (grid (top (2 ^ 53) e) - e).toNat = 1 := by
    unfold grid top
    rw [hlog]
    omega
  unfold carried
  simp only [hone]
  rfl

theorem roundWithAccuracy_spec (s : Sign) (acc : Accuracy) (he : e ≤ grid (top m e)) :
    (cut m e = 0 ∧ roundWithAccuracy .binary64 s m e acc = .zero s) ∨
      ∃ n t h, roundWithAccuracy .binary64 s m e acc = .finite s n t h ∧
        Reaches (cut m e) (grid (top m e)) n t := by
  have hcut := cut_lt m e
  have hfull := cut_full he
  have hgrid : -1074 ≤ grid (top m e) := le_max_right _ _
  obtain ⟨n, hlow, hhigh, heq⟩ := roundWithAccuracy_eq s acc he
  rw [heq]
  by_cases hn : n < 2 ^ 53
  · rw [carried_of_lt hgrid hn]
    by_cases hzero : n = 0
    · exact .inl ⟨by omega, dif_pos hzero⟩
    · refine .inr ⟨n, _, _, dif_neg hzero, ⟨hn, hgrid, by omega⟩, le_rfl, ?_⟩
      rw [sub_self, Int.toNat_zero, pow_zero, mul_one]
      exact hlow
  · obtain rfl : n = 2 ^ 53 := by omega
    refine .inr ⟨_, _, _, carried_of_eq hgrid, ⟨by decide, by omega, .inl le_rfl⟩, by omega, ?_⟩
    rw [add_sub_cancel_left, Int.toNat_one, pow_one]
    exact hcut.le

theorem le_top {k : Nat} (hm : 0 < m) (h : 2 ^ k ≤ m) : k + e ≤ top m e := by
  have := (Nat.le_log2 hm.ne').mpr h
  unfold top
  omega

theorem top_shiftLeft (hm : 0 < m) (e : Int) (k : Nat) : top (m <<< k) (e - k) = top m e := by
  have hlog : (m <<< k).log2 = m.log2 + k := by
    rw [Nat.shiftLeft_eq, Nat.log2_eq_iff (Nat.mul_pos hm (Nat.two_pow_pos k)).ne', pow_add,
      add_right_comm, pow_add]
    exact ⟨Nat.mul_le_mul_right _ (Nat.log2_self_le hm.ne'),
      Nat.mul_lt_mul_of_pos_right Nat.lt_log2_self (Nat.two_pow_pos k)⟩
  unfold top
  omega

theorem round_eq (s : Sign) (m : Nat) (e : Int) :
    ∃ k : Nat, e - k ≤ grid (top m e) ∧ (k = 0 ∨ e - k = grid (top m e)) ∧
      round .binary64 s m e = roundWithAccuracy .binary64 s (m <<< k) (e - k) .exact := by
  refine ⟨(e - grid (top m e)).toNat, by omega, by omega, ?_⟩
  unfold UnpackedFloat.round decreaseExponent
  simp only [targetExponent_eq]

/-! ## Amounts -/

/-- Nothing, or a positive number, or more than any number. -/
inductive IsAmount : UnpackedFloat → Prop
  | nothing (s : Sign) : IsAmount (.zero s)
  | some {m : Nat} {e : Int} (hcanonical : IsCanonical m e) (hfits : e ≤ 971) (hm : 0 < m) :
    IsAmount (.finite .positive m e hm)
  | endless : IsAmount (.infinity .positive)

/-- At least `2 ^ t`. -/
inductive AtLeast (t : Int) : UnpackedFloat → Prop
  | some {m : Nat} {e : Int} (hcanonical : IsCanonical m e) (hfits : e ≤ 971) (hm : 0 < m)
    (htop : t ≤ top m e) : AtLeast t (.finite .positive m e hm)
  | endless : AtLeast t (.infinity .positive)

theorem AtLeast.isAmount {u : UnpackedFloat} (h : AtLeast t u) : IsAmount u := by
  cases h with
  | some hcanonical hfits hm _ => exact .some hcanonical hfits hm
  | endless => exact .endless

theorem AtLeast.mono {u : UnpackedFloat} {t' : Int} (h : AtLeast t u) (hle : t' ≤ t) :
    AtLeast t' u := by
  cases h with
  | some hcanonical hfits hm htop => exact .some hcanonical hfits hm (hle.trans htop)
  | endless => exact .endless

theorem repack_zero (s : Sign) : repack (.zero s) = .zero s := by cases s <;> rfl

theorem repack_infinity (s : Sign) : repack (.infinity s) = .infinity s := by cases s <;> rfl

theorem repack_notANumber : repack .notANumber = .notANumber := rfl

theorem IsAmount.repack {u : UnpackedFloat} (h : IsAmount u) : Floats.repack u = u := by
  cases h with
  | nothing s => exact repack_zero s
  | some hcanonical hfits hm => rw [repack_finite hcanonical hm, if_pos hfits]
  | endless => rfl

theorem isAmount_repack_zero (s : Sign) : IsAmount (repack (.zero s)) := by
  rw [repack_zero]
  exact .nothing s

theorem atLeast_repack_infinity (t : Int) : AtLeast t (repack (.infinity .positive)) := by
  rw [repack_infinity]
  exact .endless

theorem isAmount_roundWithAccuracy (he : e ≤ grid (top m e)) (acc : Accuracy) :
    IsAmount (repack (roundWithAccuracy .binary64 .positive m e acc)) := by
  rcases roundWithAccuracy_spec .positive acc he with ⟨-, heq⟩ | ⟨n, t, hn, heq, hreaches⟩
  · rw [heq, repack_zero]
    exact .nothing _
  · rw [heq, repack_finite hreaches.canonical]
    split
    · exact .some hreaches.canonical ‹_› hn
    · exact .endless

theorem atLeast_roundWithAccuracy (he : e ≤ grid (top m e)) (hm : 0 < m)
    (htop : -1074 ≤ top m e) (acc : Accuracy) :
    AtLeast (top m e) (repack (roundWithAccuracy .binary64 .positive m e acc)) := by
  have hcut : 2 ^ (m.log2 - (grid (top m e) - e).toNat) ≤ cut m e := by
    unfold cut
    rw [Nat.le_div_iff_mul_le (Nat.two_pow_pos _), ← pow_add]
    refine (Nat.pow_le_pow_right Nat.two_pos ?_).trans (Nat.log2_self_le hm.ne')
    unfold grid top at *
    omega
  rcases roundWithAccuracy_spec .positive acc he with ⟨hzero, -⟩ | ⟨n, t, hn, heq, hreaches⟩
  · rw [hzero] at hcut
    exact absurd hcut (Nat.not_le_of_lt (Nat.two_pow_pos _))
  · rw [heq, repack_finite hreaches.canonical]
    split
    · refine .some hreaches.canonical ‹_› hn ?_
      have hlow := hcut.trans hreaches.le
      have hbehind := hreaches.behind
      have hshift := top_shiftLeft hn t (t - grid (top m e)).toNat
      rw [← Nat.shiftLeft_eq] at hlow
      have := le_top (e := t - (t - grid (top m e)).toNat)
        (Nat.pos_of_ne_zero fun h => absurd (h ▸ hlow) (Nat.not_le_of_lt (Nat.two_pow_pos _))) hlow
      rw [hshift] at this
      unfold grid top at *
      omega
    · exact .endless

/-- An amount as a multiple of the smallest one; more than any number counts as one. -/
def units : UnpackedFloat → Nat
  | .finite _ m e _ => m * 2 ^ (e + 1074).toNat
  | .infinity _ => 2 ^ 52 * 2 ^ (-52 + 1074 : Int).toNat
  | _ => 0

theorem cut_add (he : -1074 ≤ e) (hg : e ≤ grid (top m e)) :
    m * 2 ^ (e + 1074).toNat < (cut m e + 1) * 2 ^ (grid (top m e) + 1074).toNat := by
  have hsplit : (grid (top m e) + 1074).toNat = (grid (top m e) - e).toNat + (e + 1074).toNat := by
    omega
  rw [hsplit, pow_add, ← mul_assoc]
  refine Nat.mul_lt_mul_of_pos_right ?_ (Nat.two_pow_pos _)
  rw [Nat.add_one_mul]
  exact Nat.lt_div_mul_add (Nat.two_pow_pos _)

/-- What is rounded loses less than one unit in its last place. -/
theorem units_roundWithAccuracy (he : -1074 ≤ e) (hg : e ≤ grid (top m e)) (acc : Accuracy)
    (hbelow : ¬ AtLeast 0 (repack (roundWithAccuracy .binary64 .positive m e acc))) :
    m * 2 ^ (e + 1074).toNat <
      units (repack (roundWithAccuracy .binary64 .positive m e acc)) +
        2 ^ (grid (top m e) + 1074).toNat := by
  have hless := cut_add he hg
  rcases roundWithAccuracy_spec .positive acc hg with ⟨hzero, -⟩ | ⟨n, t, hn, heq, hreaches⟩
  · rw [hzero, zero_add, one_mul] at hless
    omega
  · rw [heq, repack_finite hreaches.canonical] at hbelow ⊢
    split at hbelow
    · rw [if_pos ‹_›]
      refine hless.trans_le ?_
      rw [Nat.add_one_mul]
      refine Nat.add_le_add_right ((Nat.mul_le_mul_right _ hreaches.le).trans ?_) _
      have hbehind := hreaches.behind
      have hgrid : -1074 ≤ grid (top m e) := le_max_right _ _
      have hsplit : (t + 1074).toNat = (t - grid (top m e)).toNat +
          (grid (top m e) + 1074).toNat := by omega
      show _ ≤ n * 2 ^ (t + 1074).toNat
      rw [hsplit, pow_add, mul_assoc]
    · exact absurd .endless hbelow

/-- A number that is rounded to a float. -/
theorem round_spec (he : -1074 ≤ e) (hm : 0 < m) :
    IsAmount (repack (round .binary64 .positive m e)) ∧
      AtLeast (top m e) (repack (round .binary64 .positive m e)) ∧
      (¬ AtLeast 0 (repack (round .binary64 .positive m e)) →
        m * 2 ^ (e + 1074).toNat < units (repack (round .binary64 .positive m e)) +
          2 ^ (grid (top m e) + 1074).toNat) := by
  obtain ⟨k, hk, hexact, heq⟩ := round_eq .positive m e
  have htop := top_shiftLeft hm e k
  have hpos : 0 < m <<< k := by
    rw [Nat.shiftLeft_eq]
    exact Nat.mul_pos hm (Nat.two_pow_pos k)
  have hhigh : -1074 ≤ top m e := by
    unfold top
    omega
  have hsame : m <<< k * 2 ^ (e - k + 1074).toNat = m * 2 ^ (e + 1074).toNat := by
    have hgrid : -1074 ≤ grid (top m e) := le_max_right _ _
    have hsplit : (e + 1074).toNat = k + (e - k + 1074).toNat := by omega
    rw [Nat.shiftLeft_eq, hsplit, pow_add, mul_assoc]
  rw [heq]
  rw [← htop] at hk hhigh
  refine ⟨isAmount_roundWithAccuracy hk _, ?_, fun hbelow => ?_⟩
  · rw [← htop]
    exact atLeast_roundWithAccuracy hk hpos hhigh _
  · rw [← hsame, ← htop]
    refine units_roundWithAccuracy ?_ hk _ hbelow
    have hgrid : -1074 ≤ grid (top m e) := le_max_right _ _
    omega

theorem normalize_of_pos (hm : 0 < m) (s : Sign) :
    normalize .binary64 m e s = round .binary64 .positive m e := by
  have hcompare : compare (m : Int) 0 = .gt := Int.compare_eq_gt.mpr (by omega)
  unfold UnpackedFloat.normalize
  rw [hcompare]
  rfl

theorem add_finite (hm : 0 < m) (hn : 0 < n) :
    UnpackedFloat.add .binary64 (.finite .positive m e hm) (.finite .positive n t hn) =
      round .binary64 .positive (m <<< (e - min e t).toNat + n <<< (t - min e t).toNat)
        (min e t) := by
  rw [← normalize_of_pos _ .positive]
  · rfl
  · rw [Nat.shiftLeft_eq]
    exact Nat.add_pos_left (Nat.mul_pos hm (Nat.two_pow_pos _)) _

/-- The sum of two numbers, before it is rounded. -/
theorem units_sum (he : -1074 ≤ e) (ht : -1074 ≤ t) :
    (m <<< (e - min e t).toNat + n <<< (t - min e t).toNat) * 2 ^ (min e t + 1074).toNat =
      m * 2 ^ (e + 1074).toNat + n * 2 ^ (t + 1074).toNat := by
  have hsplit : ∀ x, min e t ≤ x →
      (x + 1074).toNat = (x - min e t).toNat + (min e t + 1074).toNat := by
    intro x hx
    omega
  rw [Nat.shiftLeft_eq, Nat.shiftLeft_eq, add_mul, hsplit e (min_le_left _ _),
    hsplit t (min_le_right _ _), pow_add, pow_add, mul_assoc, mul_assoc]

theorem top_mono (hm : 0 < m) (h : m ≤ n) (e : Int) : top m e ≤ top n e := by
  have hn : n ≠ 0 := (hm.trans_le h).ne'
  have := (Nat.le_log2 hn).mpr ((Nat.log2_self_le hm.ne').trans h)
  unfold top
  omega

theorem top_shiftLeft_of_le (hm : 0 < m) (h : t ≤ e) : top (m <<< (e - t).toNat) t = top m e := by
  have hshift := top_shiftLeft hm e (e - t).toNat
  rwa [show e - ((e - t).toNat : Int) = t by omega] at hshift

theorem shiftLeft_pos (hm : 0 < m) (k : Nat) : 0 < m <<< k := by
  rw [Nat.shiftLeft_eq]
  exact Nat.mul_pos hm (Nat.two_pow_pos k)

theorem not_atLeast_zero (s : Sign) : ¬ AtLeast t (.zero s) := fun h => nomatch h

theorem units_pos {u : UnpackedFloat} (h : AtLeast t u) (hbelow : ¬ AtLeast 0 u) : 0 < units u := by
  cases h with
  | some _ _ hm _ => exact Nat.mul_pos hm (Nat.two_pow_pos _)
  | endless => exact absurd .endless hbelow

theorem le_units (he : -1074 ≤ e) (hm : 0 < m) {k : Nat} (h : (k : Int) ≤ top m e + 1074) :
    2 ^ k ≤ m * 2 ^ (e + 1074).toNat := by
  refine (Nat.pow_le_pow_right Nat.two_pos ?_ : 2 ^ k ≤ 2 ^ (m.log2 + (e + 1074).toNat)).trans ?_
  · unfold top at h
    omega
  · rw [pow_add]
    exact Nat.mul_le_mul_right _ (Nat.log2_self_le hm.ne')

/-- What comes of two amounts that are added. -/
structure IsSum (u v sum : UnpackedFloat) : Prop where
  isAmount : IsAmount sum
  /-- Its first digit is not behind theirs. -/
  atLeast : ∀ t, AtLeast t u ∨ AtLeast t v → AtLeast t sum
  /-- An amount that is far above the last place makes a difference. -/
  more : AtLeast (-18) v → ¬ AtLeast 0 sum → units u < units sum

theorem isSum_endless {u v : UnpackedFloat}
    (hsum : UnpackedFloat.add .binary64 u v = .infinity .positive) :
    IsSum u v (repack (.add .binary64 u v)) := by
  rw [hsum, repack_infinity]
  exact ⟨.endless, fun _ _ => .endless, fun _ hbelow => absurd .endless hbelow⟩

theorem isSum_finite (he : -1074 ≤ e) (hm : 0 < m) (ht : -1074 ≤ t) (hn : 0 < n) :
    IsSum (.finite .positive m e hm) (.finite .positive n t hn)
      (repack (.add .binary64 (.finite .positive m e hm) (.finite .positive n t hn))) := by
  have hmin : -1074 ≤ min e t := le_min he ht
  have hunits := units_sum (m := m) (n := n) he ht
  have hm' := shiftLeft_pos hm (e - min e t).toNat
  have hn' := shiftLeft_pos hn (t - min e t).toNat
  have htop := top_mono hm' (Nat.le_add_right _ (n <<< (t - min e t).toNat)) (min e t)
  have htop' := top_mono hn' (Nat.le_add_left _ (m <<< (e - min e t).toNat)) (min e t)
  rw [top_shiftLeft_of_le hm (min_le_left e t)] at htop
  rw [top_shiftLeft_of_le hn (min_le_right e t)] at htop'
  rw [add_finite]
  obtain ⟨hamount, hleast, hloss⟩ :=
    round_spec hmin (Nat.add_pos_left hm' (n <<< (t - min e t).toNat))
  refine ⟨hamount, fun j hj => ?_, fun hv hbelow => ?_⟩
  · rcases hj with hj | hj <;> cases hj
    · exact hleast.mono (le_trans ‹_› htop)
    · exact hleast.mono (le_trans ‹_› htop')
  · have hloss := hloss hbelow
    rw [hunits] at hloss
    cases hv with
    | some _ _ _ hv =>
    have hsmall : ¬ 0 ≤ top (m <<< (e - min e t).toNat + n <<< (t - min e t).toNat) (min e t) :=
      fun h => hbelow (hleast.mono h)
    have hlarge : 2 ^ (grid (top (m <<< (e - min e t).toNat + n <<< (t - min e t).toNat)
        (min e t)) + 1074).toNat ≤ n * 2 ^ (t + 1074).toNat := by
      refine le_units ht hn ?_
      unfold grid
      omega
    show m * 2 ^ (e + 1074).toNat < _
    refine Nat.lt_of_add_lt_add_right (hloss.trans_le' ?_)
    exact Nat.add_le_add_left hlarge _

/-- Nothing is added. -/
theorem units_add_zero {u : UnpackedFloat} (hu : IsAmount u) (s : Sign) :
    units (repack (.add .binary64 u (.zero s))) = units u := by
  cases hu with
  | nothing s' => cases s <;> cases s' <;> rfl
  | some hcanonical hfits hm =>
    exact congrArg units (IsAmount.some hcanonical hfits hm).repack
  | endless => exact congrArg units (repack_infinity .positive)

theorem add_notANumber (u : UnpackedFloat) :
    UnpackedFloat.add .binary64 u .notANumber = .notANumber := by
  cases u <;> rfl

/-- Amounts are added. -/
theorem isSum_add {u v : UnpackedFloat} (hu : IsAmount u) (hv : IsAmount v) :
    IsSum u v (repack (.add .binary64 u v)) := by
  cases hu with
  | endless => cases hv <;> exact isSum_endless rfl
  | nothing s =>
    cases hv with
    | endless => exact isSum_endless rfl
    | nothing s' =>
      obtain ⟨s'', hsum⟩ : ∃ s'', repack (.add .binary64 (.zero s) (.zero s')) = .zero s'' := by
        cases s <;> cases s' <;> exact ⟨_, rfl⟩
      rw [hsum]
      exact ⟨.nothing _, fun j hj => absurd hj (by simp [not_atLeast_zero]),
        fun hj => absurd hj (not_atLeast_zero _)⟩
    | some hcanonical hfits hm =>
      have hsame : repack (.add .binary64 (.zero s) (.finite .positive _ _ hm)) =
        .finite .positive _ _ hm := (IsAmount.some hcanonical hfits hm).repack
      rw [hsame]
      exact ⟨.some hcanonical hfits hm, fun j hj => hj.resolve_left (not_atLeast_zero _), units_pos⟩
  | some hcanonical hfits hm =>
    cases hv with
    | endless => exact isSum_endless rfl
    | some hcanonical' hfits' hn => exact isSum_finite hcanonical.le hm hcanonical'.le hn
    | nothing s' =>
      have hsame : repack (.add .binary64 (.finite .positive _ _ hm) (.zero s')) =
        .finite .positive _ _ hm := (IsAmount.some hcanonical hfits hm).repack
      rw [hsame]
      exact ⟨.some hcanonical hfits hm, fun j hj => hj.resolve_right (not_atLeast_zero _),
        fun hj => absurd hj (not_atLeast_zero _)⟩

/-! ## Products and quotients -/

theorem pos_of_le_log2 {k : Nat} (h : 2 ^ k ≤ m) : 0 < m := (Nat.two_pow_pos k).trans_le h

theorem top_mul (hm : 0 < m) (hn : 0 < n) (e t : Int) :
    top m e + top n t ≤ top (m * n) (e + t) := by
  have hlow : 2 ^ (m.log2 + n.log2) ≤ m * n := by
    rw [pow_add]
    exact Nat.mul_le_mul (Nat.log2_self_le hm.ne') (Nat.log2_self_le hn.ne')
  have := le_top (e := e + t) (Nat.mul_pos hm hn) hlow
  unfold top at *
  omega

theorem IsCanonical.mul (h : IsCanonical m e) (hm : 0 < m) (h' : IsCanonical n t) (hn : 0 < n) :
    e + t ≤ grid (top (m * n) (e + t)) := by
  have hle := h.le
  have hle' := h'.le
  have hbig : ∀ k, 2 ^ 52 ≤ k → k ≤ m * n → e + t ≤ grid (top (m * n) (e + t)) := by
    intro k hk hkm
    have := le_top (e := e + t) (Nat.mul_pos hm hn) (hk.trans hkm)
    unfold grid
    omega
  rcases h.full with hfull | hlow
  · exact hbig m hfull (Nat.le_mul_of_pos_right m hn)
  · rcases h'.full with hfull | hlow'
    · exact hbig n hfull (Nat.le_mul_of_pos_left n hm)
    · unfold grid
      omega

theorem isAmount_mul {u : UnpackedFloat} (hu : IsAmount u) (h : IsCanonical n t) (hn : 0 < n) :
    IsAmount (repack (.mul .binary64 u (.finite .positive n t hn))) := by
  cases hu with
  | nothing s => exact isAmount_repack_zero _
  | some hcanonical hfits hm => exact isAmount_roundWithAccuracy (hcanonical.mul hm h hn) _
  | endless => exact (atLeast_repack_infinity 0).isAmount

/-- Nothing times more than any number is no number. -/
theorem isAmount_mul_or {u v : UnpackedFloat} (hu : IsAmount u) (hv : AtLeast t v) :
    IsAmount (repack (.mul .binary64 u v)) ∨ repack (.mul .binary64 u v) = .notANumber := by
  cases hv with
  | some hcanonical hfits hn _ => exact .inl (isAmount_mul hu hcanonical hn)
  | endless =>
    cases hu with
    | nothing s => exact .inr repack_notANumber
    | some _ _ _ => exact .inl (atLeast_repack_infinity 0).isAmount
    | endless => exact .inl (atLeast_repack_infinity 0).isAmount

theorem atLeast_mul {u v : UnpackedFloat} {i j : Int} (hu : AtLeast i u) (hv : AtLeast j v)
    (hlow : -1074 ≤ i + j) : AtLeast (i + j) (repack (.mul .binary64 u v)) := by
  cases hu with
  | endless => cases hv <;> exact atLeast_repack_infinity _
  | some hcanonical hfits hm htop =>
    cases hv with
    | endless => exact atLeast_repack_infinity _
    | some hcanonical' hfits' hn htop' =>
      have htops := (add_le_add htop htop').trans (top_mul hm hn _ _)
      exact (atLeast_roundWithAccuracy (hcanonical.mul hm hcanonical' hn) (Nat.mul_pos hm hn)
        (hlow.trans htops) _).mono htops

/-- A quotient has digits enough to be rounded, and its first one is where it can be. -/
theorem div_finite (hm : 0 < m) (hn : 0 < n) (e t : Int) :
    ∃ q x acc,
      UnpackedFloat.div .binary64 (.finite .positive m e hm) (.finite .positive n t hn) =
        roundWithAccuracy .binary64 .positive q x acc ∧ x ≤ grid (top q x) ∧
      (-1074 ≤ top m e - top n t - 1 → 0 < q ∧ top m e - top n t - 1 ≤ top q x) := by
  have htarget : Format.binary64.targetExponent (totalExponent m e - totalExponent n t) =
      max (top m e - top n t - 53) (-1074) := by
    have hmin : Format.binary64.minExponent = -1074 := rfl
    have hbits : (Format.binary64.mantissaBits : Int) = 53 := rfl
    unfold Format.targetExponent totalExponent top
    rw [hmin, hbits]
    omega
  obtain ⟨x, hx⟩ : ∃ x, min (e - t) (max (top m e - top n t - 53) (-1074)) = x := ⟨_, rfl⟩
  have hquotient : ∀ k : Nat, n.log2 + 1 + k ≤ m.log2 + (e - t - x).toNat →
      2 ^ k ≤ m <<< (e - t - x).toNat / n := by
    intro k hk
    rw [Nat.le_div_iff_mul_le hn, Nat.shiftLeft_eq]
    calc 2 ^ k * n ≤ 2 ^ k * 2 ^ (n.log2 + 1) := Nat.mul_le_mul_left _ Nat.lt_log2_self.le
      _ = 2 ^ (n.log2 + 1 + k) := by rw [← pow_add, add_comm]
      _ ≤ 2 ^ (m.log2 + (e - t - x).toNat) := Nat.pow_le_pow_right Nat.two_pos hk
      _ ≤ m * 2 ^ (e - t - x).toNat := by
        rw [pow_add]
        exact Nat.mul_le_mul_right _ (Nat.log2_self_le hm.ne')
  refine ⟨m <<< (e - t - x).toNat / n, x,
    accuracyOfFraction (m <<< (e - t - x).toNat % n) n, ?_, ?_, fun hlow => ?_⟩
  · unfold UnpackedFloat.div divCore
    simp only [htarget, hx]
    rfl
  · by_cases hsmall : x ≤ -1074
    · unfold grid
      omega
    · have hfull := hquotient 52 (by unfold top at hx; omega)
      have := le_top (e := x) (pos_of_le_log2 hfull) hfull
      unfold grid
      omega
  · have hone := hquotient (m.log2 + (e - t - x).toNat - (n.log2 + 1)) (by unfold top at *; omega)
    refine ⟨pos_of_le_log2 hone, ?_⟩
    have := le_top (e := x) (pos_of_le_log2 hone) hone
    unfold top at *
    omega

theorem isAmount_div {u : UnpackedFloat} (hu : IsAmount u) (hn : 0 < n) :
    IsAmount (repack (.div .binary64 u (.finite .positive n t hn))) := by
  cases hu with
  | nothing s => exact isAmount_repack_zero _
  | endless => exact (atLeast_repack_infinity 0).isAmount
  | some hcanonical hfits hm =>
    obtain ⟨q, x, acc, hdiv, hgrid, -⟩ := div_finite hm hn _ t
    rw [hdiv]
    exact isAmount_roundWithAccuracy hgrid acc

theorem atLeast_div {u : UnpackedFloat} {i : Int} (hu : AtLeast i u) (hn : 0 < n)
    (hlow : -1074 ≤ i - top n t - 1) :
    AtLeast (i - top n t - 1) (repack (.div .binary64 u (.finite .positive n t hn))) := by
  cases hu with
  | endless => exact atLeast_repack_infinity _
  | some hcanonical hfits hm htop =>
    rename_i m e
    obtain ⟨q, x, acc, hdiv, hgrid, hspec⟩ := div_finite hm hn e t
    obtain ⟨hq, htops⟩ := hspec (by omega)
    rw [hdiv]
    exact (atLeast_roundWithAccuracy hgrid hq (by omega) acc).mono (by omega)

/-! ## One -/

/-- One, taken apart. -/
def one : UnpackedFloat := .finite .positive (2 ^ 52) (-52) (by decide)

theorem one_le_iff {u : UnpackedFloat} (hu : IsAmount u) : one.le u = true ↔ AtLeast 0 u := by
  cases hu with
  | nothing s =>
    refine ⟨fun h => ?_, fun h => absurd h (not_atLeast_zero s)⟩
    cases s <;> cases h
  | endless => exact ⟨fun _ => .endless, fun _ => rfl⟩
  | some hcanonical hfits hm =>
    rename_i m e
    have hle : one.le (.finite .positive m e hm) =
        ((compare (-52) e).then (compare (2 ^ 52) m)).isLE := rfl
    have hfull := hcanonical.full
    have hlog := (Nat.log2_lt hm.ne').mpr hcanonical.lt
    rw [hle]
    rcases lt_trichotomy (-52) e with hlt | heq | hgt
    · have htop := le_top (e := e) hm (hfull.resolve_right (by omega))
      rw [compare_lt_iff_lt.mpr hlt]
      exact ⟨fun _ => .some hcanonical hfits hm (by omega), fun _ => rfl⟩
    · have hone := hfull.resolve_right (by omega)
      have htop := le_top (e := e) hm hone
      rw [compare_eq_iff_eq.mpr heq]
      refine ⟨fun _ => .some hcanonical hfits hm (by omega), fun _ => ?_⟩
      exact Nat.isLE_compare.mpr hone
    · rw [compare_gt_iff_gt.mpr hgt]
      refine ⟨fun h => absurd h Bool.false_ne_true, fun h => ?_⟩
      cases h with
      | some _ _ _ htop =>
        unfold top at htop
        omega

/-- Where there is one, it can be taken. -/
theorem isAmount_sub_one {u : UnpackedFloat} (hu : AtLeast 0 u) :
    IsAmount (repack (.sub .binary64 u one)) := by
  cases hu with
  | endless => exact (atLeast_repack_infinity 0).isAmount
  | some hcanonical hfits hm htop =>
    rename_i m e
    have hexponent : -52 ≤ e := by
      have hlog := (Nat.log2_lt hm.ne').mpr hcanonical.lt
      unfold top at htop
      omega
    have hle : (2 ^ 52) <<< (-52 - min e (-52)).toNat ≤ m <<< (e - min e (-52)).toNat := by
      rw [min_eq_right hexponent, sub_self, Int.toNat_zero, Nat.shiftLeft_zero, Nat.shiftLeft_eq]
      refine (hcanonical.full.resolve_right (by omega)).trans ?_
      exact Nat.le_mul_of_pos_right m (Nat.two_pow_pos _)
    have hsub : UnpackedFloat.sub .binary64 (.finite .positive m e hm) one =
        normalize .binary64 ((m <<< (e - min e (-52)).toNat : Nat) -
          ((2 ^ 52) <<< (-52 - min e (-52)).toNat : Nat) : Int) (min e (-52)) .positive := rfl
    rw [hsub, ← Int.natCast_sub hle]
    rcases Nat.eq_zero_or_pos (m <<< (e - min e (-52)).toNat -
        (2 ^ 52) <<< (-52 - min e (-52)).toNat) with hzero | hpos
    · rw [hzero]
      exact isAmount_repack_zero _
    · rw [normalize_of_pos hpos]
      exact (round_spec (by omega) hpos).1

theorem units_one : ∃ k : Nat, (k : Int) = 1074 ∧ units one = 2 ^ k := by
  refine ⟨52 + 1022, rfl, ?_⟩
  show 2 ^ 52 * 2 ^ (-52 + 1074 : Int).toNat = _
  rw [show (-52 + 1074 : Int).toNat = 1022 from rfl, pow_add]

theorem units_lt_one {u : UnpackedFloat} (hu : IsAmount u) (hbelow : ¬ AtLeast 0 u) :
    units u < units one := by
  cases hu with
  | nothing s => exact Nat.mul_pos (Nat.two_pow_pos 52) (Nat.two_pow_pos _)
  | endless => exact absurd .endless hbelow
  | some hcanonical hfits hm =>
    rename_i m e
    have htop : ¬ 0 ≤ top m e := fun h => hbelow (.some hcanonical hfits hm h)
    obtain ⟨k, hk, hone⟩ := units_one
    rw [hone]
    show m * 2 ^ (e + 1074).toNat < _
    calc m * 2 ^ (e + 1074).toNat < 2 ^ (m.log2 + 1) * 2 ^ (e + 1074).toNat :=
          Nat.mul_lt_mul_of_pos_right Nat.lt_log2_self (Nat.two_pow_pos _)
      _ = 2 ^ (m.log2 + 1 + (e + 1074).toNat) := (pow_add _ _ _).symm
      _ ≤ 2 ^ k := by
        refine Nat.pow_le_pow_right Nat.two_pos ?_
        have hlow := hcanonical.le
        unfold top at htop
        omega

theorem one_le_units {u : UnpackedFloat} (hu : AtLeast 0 u) : units one ≤ units u := by
  cases hu with
  | endless => exact le_rfl
  | some hcanonical hfits hm htop =>
    obtain ⟨k, hk, hone⟩ := units_one
    rw [hone]
    exact le_units hcanonical.le hm (by omega)

theorem isCanonical_one : IsCanonical (2 ^ 52) (-52) := ⟨by decide, by decide, .inl le_rfl⟩

theorem atLeast_one : AtLeast 0 one :=
  .some isCanonical_one (by decide) (by decide) (by decide)

theorem parts_ofNat_of_lt (hn : n < 2 ^ 53) :
    parts (Float.ofNat n) = repack (.mul .binary64 (repack (.ofNat .binary64 n)) one) := by
  have hsame : n.toUInt64.toNat = n := Nat.mod_eq_of_lt (by omega)
  have hfloat : Float.ofNat n = n.toUInt64.toFloat * Float.ofBits 0x3FF0000000000000 :=
    dif_pos ⟨hn, Nat.zero_le 22⟩
  have hpower : parts (Float.ofBits 0x3FF0000000000000) = one := rfl
  have hinner : parts n.toUInt64.toFloat = repack (.ofNat .binary64 n.toUInt64.toNat) := rfl
  rw [hfloat]
  show repack (.mul .binary64 (parts n.toUInt64.toFloat) (parts _)) = _
  rw [hpower, hinner, hsame]

theorem parts_ofNat_of_le (hn : ¬ n < 2 ^ 53) (hpos : 0 < n) :
    parts (Float.ofNat n) =
      repack (roundWithAccuracy .binary64 .positive (n <<< 53) (-53) .exact) := by
  have hfloat : Float.ofNat n = .ofModel (.ofScientific n 0) := dif_neg fun h => hn h.1
  have hlow : ¬ (0 : Int) < -((2 ^ Format.binary64.exponentBits : Int) + n.log2) := by
    show ¬ (0 : Int) < -((2 ^ 11 : Int) + n.log2)
    omega
  rw [hfloat]
  show repack (.ofScientific .binary64 n 0) = _
  unfold UnpackedFloat.ofScientific
  rw [dif_neg hpos.ne', if_neg (by decide), if_neg hlow, if_pos le_rfl]
  show repack (roundWithAccuracy .binary64 .positive ((n <<< 53) * 1) (-53) .exact) = _
  rw [mul_one]

/-- A natural number has the first digit of the float next to it, or one digit less. -/
theorem atLeast_ofNat (hn : 0 < n) : AtLeast n.log2 (parts (Float.ofNat n)) := by
  have htop : top n 0 = n.log2 := add_zero _
  by_cases hsmall : n < 2 ^ 53
  · have hround : UnpackedFloat.ofNat .binary64 n = round .binary64 .positive n 0 :=
      normalize_of_pos hn .positive
    have hleast := (round_spec (e := 0) (by decide) hn).2.1
    rw [parts_ofNat_of_lt hsmall, hround, ← htop, ← add_zero (top n 0)]
    exact atLeast_mul hleast atLeast_one (by omega)
  · have hlog := (Nat.le_log2 hn.ne').mpr (Nat.le_of_not_lt hsmall)
    have hshift : top (n <<< 53) (-53) = n.log2 := (top_shiftLeft hn 0 53).trans htop
    rw [parts_ofNat_of_le hsmall hn, ← hshift]
    refine atLeast_roundWithAccuracy ?_ (shiftLeft_pos hn 53) (by omega) _
    unfold grid
    omega

theorem isAmount_ofNat (n : Nat) : IsAmount (parts (Float.ofNat n)) := by
  rcases Nat.eq_zero_or_pos n with rfl | hn
  · exact .nothing .positive
  · exact (atLeast_ofNat hn).isAmount

theorem parts_add (x y : Float) : parts (x + y) = repack (.add .binary64 (parts x) (parts y)) := rfl

theorem parts_sub (x y : Float) : parts (x - y) = repack (.sub .binary64 (parts x) (parts y)) := rfl

theorem atMost_eq (x y : Float) : TokenNumber.atMost x y = (parts x).le (parts y) := by
  show decide (decide ((parts x).le (parts y) = true) = true) = _
  rw [Bool.decide_eq_true, Bool.decide_eq_true]

end Floats

end SmellWatch
