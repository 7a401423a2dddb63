import SmellWatch.RemoteError
import SmellWatch.Proofs.Decimal.Rounding
/-! What a reply without success is made into, and how long it may ask to wait.

Every reply is classified, and a wait that is heeded is longer than nothing and shorter than a
minute, with one exception: milliseconds are turned into a duration before they are compared with
anything, and a number of 2^64 seconds or more has none (`ofSecondsDouble?_thousandth_eq_none_iff`).
So exactly a reply of status 429 whose milliseconds are such a number is not classified
(`ofReply_classifies_iff`). -/

namespace SmellWatch

open Decimal

namespace RetryAfter

variable {x y : Double} {d : Duration} {headers : List Http.Header}

/-- 2^64 seconds or more, counted in milliseconds. -/
def AsksTooMuch (x : Double) : Prop :=
  x.isNegative = false ∧
    (x.isInfinite = true ∨ x.isFinite = true ∧
      2 ^ 64 ≤ Format.double.value x.bits.toNat / 1000)

/-! ## Numbers around the limit -/

/-- The number with full mantissa `n` and stored exponent `j + 1`. -/
theorem value_double {j n : Nat} (hn : n < 2 ^ 53) (hfull : 2 ^ 52 ≤ n)
    (hb : j * 2 ^ 52 + n < Format.double.signBit) :
    Format.double.value (j * 2 ^ 52 + n) = n * 2 ^ ((j : Int) - 1074) := by
  have hleast : Format.double.leastExponent = -1074 := by decide
  have hvalue := Format.value_pack (f := .double) (hn.trans_eq (by decide)) (.inr hfull) hb
  rw [hleast, neg_add_eq_sub] at hvalue
  exact hvalue

/-- 2^64, with the number before it. -/
theorem value_secondsLimit :
    Format.double.value (1086 * 2 ^ 52 + 2 ^ 52) = 2 ^ 64 ∧
      Format.double.value (1085 * 2 ^ 52 + (2 ^ 53 - 1)) = (2 ^ 53 - 1) * 2 ^ 11 := by
  rw [value_double (by decide) (by decide) (by decide),
    value_double (by decide) (by decide) (by decide)]
  norm_num

/-- A thousand times 2^64, with the number before it. -/
theorem value_millisLimit :
    Format.double.value (1095 * 2 ^ 52 + 125 * 2 ^ 46) = 1000 * 2 ^ 64 ∧
      Format.double.value (1095 * 2 ^ 52 + (125 * 2 ^ 46 - 1)) = (125 * 2 ^ 46 - 1) * 2 ^ 21 := by
  rw [value_double (by decide) (by decide) (by decide),
    value_double (by decide) (by decide) (by decide)]
  norm_num

theorem value_le {b c : Nat} (h : b ≤ c) (hc : c < Format.double.signBit) :
    Format.double.value b ≤ Format.double.value c := by
  rcases Nat.eq_or_lt_of_le h with rfl | hlt
  · exact le_refl _
  · exact (Format.value_lt hlt hc).le

/-- A thousandth is rounded to 2^64 or more exactly if it is 2^64 or more: the number before a
thousand times 2^64 is so far from it that its thousandth is no nearer to 2^64 than the number
before that. -/
theorem secondsLimit_le_round_iff {b num den : Nat} (hb : b < Format.double.signBit)
    (hden : 0 < den) (h : (num / den : ℚ) = Format.double.value b) :
    1086 * 2 ^ 52 + 2 ^ 52 ≤ Format.double.round num (den * 1000) ↔
      2 ^ 64 ≤ Format.double.value b / 1000 := by
  obtain ⟨hseconds, hsecondsBefore⟩ := value_secondsLimit
  obtain ⟨hmillis, hmillisBefore⟩ := value_millisLimit
  have hden' : 0 < den * 1000 := Nat.mul_pos hden (by decide)
  have hthousandth : (num / (den * 1000 : Nat) : ℚ) = Format.double.value b / 1000 := by
    rw [← h]
    push_cast
    rw [div_div]
  constructor
  · intro hle
    by_contra hlt
    have hbits : b ≤ 1095 * 2 ^ 52 + (125 * 2 ^ 46 - 1) := by
      by_contra hgt
      have hvalue := value_le (show 1095 * 2 ^ 52 + 125 * 2 ^ 46 ≤ b by omega) hb
      rw [hmillis] at hvalue
      exact hlt (by linarith)
    have hvalue := value_le hbits (by decide)
    rw [hmillisBefore] at hvalue
    have hround : Format.double.round num (den * 1000) ≤ 1085 * 2 ^ 52 + (2 ^ 53 - 1) := by
      refine Format.round_le hden' (by decide) ?_
      rw [hthousandth, hsecondsBefore]
      linarith
    omega
  · intro hle
    refine Format.le_round hden' (by decide) ?_
    rw [hthousandth, hseconds]
    exact hle

/-! ## Durations -/

theorem toNat_ofBits {n : Nat} (h : n < 2 * Format.double.signBit) :
    (Double.ofBits n).bits.toNat = n := by
  have hwidth : 2 * Format.double.signBit = UInt64.size := by decide
  exact UInt64.toNat_ofNat_of_lt' (h.trans_eq hwidth)

/-- Only what has 2^64 seconds or is no number has no duration. -/
theorem ofSecondsDouble?_ofBits_eq_none_iff {c : Nat} (hc : c ≤ Format.double.infinity) :
    Duration.ofSecondsDouble? (Double.ofBits c) = none ↔ 1086 * 2 ^ 52 + 2 ^ 52 ≤ c := by
  have hsign := hc.trans_lt (Format.infinity_lt_signBit .double)
  have hbits : (Double.ofBits c).bits.toNat = c := toNat_ofBits (by omega)
  have hfinite : (Double.ofBits c).isFinite = true ↔ c < Format.double.infinity := by
    have h := Format.isFinite_iff .double c
    rw [Nat.mod_eq_of_lt hsign] at h
    unfold Double.isFinite Double.isNaN Double.isInfinite
    rw [hbits]
    exact h
  obtain ⟨hden, hquotient⟩ := Format.quotient_spec .double c
  have hlimit : Nat.pow 2 64 * (Format.double.quotient c).2 ≤ (Format.double.quotient c).1 ↔
      1086 * 2 ^ 52 + 2 ^ 52 ≤ c := by
    have hcast : Nat.pow 2 64 * (Format.double.quotient c).2 ≤ (Format.double.quotient c).1 ↔
        2 ^ 64 ≤ Format.double.value c := by
      rw [← hquotient, le_div_iff₀ (by exact_mod_cast hden)]
      simp only [Nat.pow_eq]
      exact_mod_cast Iff.rfl
    rw [hcast, ← value_secondsLimit.1]
    constructor
    · intro hle
      by_contra hlt
      exact absurd (Format.value_lt (not_le.mp hlt) (by decide)) (not_lt.mpr hle)
    · exact fun hle => value_le hle hsign
  unfold Duration.ofSecondsDouble? Double.quotient
  rw [hbits]
  by_cases hin : c < Format.double.infinity
  · rw [hfinite.mpr hin, if_neg (by decide)]
    dsimp only
    rw [← hlimit]
    split
    · exact iff_of_true rfl ‹_›
    · exact iff_of_false nofun ‹_›
  · have hinfinite : (Double.ofBits c).isFinite = false := by
      simpa using hfinite.not.mpr hin
    rw [hinfinite, if_pos (by decide)]
    refine iff_of_true rfl (le_trans ?_ (not_lt.mp hin))
    decide

/-- The thousandth of a number has no duration exactly if it asks too much. -/
theorem ofSecondsDouble?_thousandth_eq_none_iff (x : Double) :
    Duration.ofSecondsDouble? (thousandth x) = none ↔ AsksTooMuch x := by
  have hzero : Duration.ofSecondsDouble? (.ofNat 0) ≠ none := by
    have hround : Format.double.round 0 1 = 0 := if_pos (.inl rfl)
    unfold Double.ofNat Double.ofQuotient
    rw [hround, if_neg (by decide), Nat.zero_add]
    exact (ofSecondsDouble?_ofBits_eq_none_iff (Nat.zero_le _)).not.mpr (by decide)
  unfold thousandth AsksTooMuch
  by_cases hnegative : x.isNegative = true
  · rw [hnegative, Bool.or_true, if_pos rfl]
    exact iff_of_false hzero (fun h => absurd h.1 (by decide))
  rw [Bool.not_eq_true] at hnegative
  by_cases hnan : x.isNaN = true
  · rw [hnan, Bool.true_or, if_pos rfl]
    refine iff_of_false hzero ?_
    rintro ⟨-, hinfinite | ⟨hfinite, -⟩⟩
    · unfold Double.isNaN Format.isNaN at hnan
      unfold Double.isInfinite Format.isInfinite at hinfinite
      simp at hnan hinfinite
      omega
    · unfold Double.isFinite at hfinite
      rw [hnan] at hfinite
      cases hfinite
  rw [Bool.not_eq_true] at hnan
  rw [hnan, hnegative, Bool.or_false, if_neg (by decide)]
  by_cases hinfinite : x.isInfinite = true
  · have hnone : Duration.ofSecondsDouble? x = none := by
      unfold Duration.ofSecondsDouble? Double.isFinite
      rw [hinfinite, Bool.not_true, Bool.and_false, if_pos (by decide)]
    rw [if_pos hinfinite, hnone]
    exact iff_of_true rfl ⟨rfl, .inl hinfinite⟩
  · rw [Bool.not_eq_true] at hinfinite
    have hfinite : x.isFinite = true := by
      unfold Double.isFinite
      rw [hnan, hinfinite]
      rfl
    have hsign : x.bits.toNat < Format.double.signBit := by
      unfold Double.isNegative Format.isNegative at hnegative
      simpa using hnegative
    obtain ⟨hden, hquotient⟩ := Format.quotient_spec .double x.bits.toNat
    rw [if_neg (by rw [hinfinite]; decide), hinfinite, hfinite]
    dsimp only
    unfold Double.ofQuotient
    rw [if_neg (by decide), Nat.zero_add,
      ofSecondsDouble?_ofBits_eq_none_iff (Format.round_le_infinity _ _ _), Double.quotient,
      secondsLimit_le_round_iff hsign hden hquotient]
    simp

/-! ## Headers -/

/-- The milliseconds in the headers ask too much. -/
def HeadersAskTooMuch (headers : List Http.Header) : Prop :=
  ∃ s x, Http.readableHeader? "retry-after-ms" headers = some s ∧
    Decimal.double? s = some x ∧ AsksTooMuch x

theorem ofMillisText?_eq_error_iff (s : String) :
    ofMillisText? s = .error .tooLong ↔ ∃ x, Decimal.double? s = some x ∧ AsksTooMuch x := by
  unfold ofMillisText?
  cases Decimal.double? s with
  | none => exact iff_of_false nofun nofun
  | some x =>
    have hnone := ofSecondsDouble?_thousandth_eq_none_iff x
    have hexists : (∃ y, some x = some y ∧ AsksTooMuch y) ↔ AsksTooMuch x :=
      ⟨fun ⟨_, heq, hy⟩ => Option.some.inj heq ▸ hy, fun hx => ⟨x, rfl, hx⟩⟩
    rw [hexists, ← hnone]
    dsimp only
    cases Duration.ofSecondsDouble? (thousandth x) with
    | none => exact iff_of_true rfl rfl
    | some d => exact iff_of_false nofun nofun

/-- What the headers ask for once the milliseconds in them are read. -/
theorem ofHeaders_eq (headers : List Http.Header) :
    ofHeaders headers =
      ((Http.readableHeader? "retry-after-ms" headers).elim (.ok none) ofMillisText?).map
        fun millis => (millis.filter heeded).or
          (((Http.readableHeader? "retry-after" headers).bind ofSecondsText?).filter heeded) := by
  unfold ofHeaders
  cases Http.readableHeader? "retry-after-ms" headers with
  | none => rfl
  | some s =>
    dsimp only [Option.elim]
    cases ofMillisText? s with
    | error e => rfl
    | ok millis =>
      dsimp only [bind, Except.bind, Except.map]
      cases millis.filter heeded <;> rfl

theorem ofHeaders_eq_error_iff (headers : List Http.Header) :
    ofHeaders headers = .error .tooLong ↔ HeadersAskTooMuch headers := by
  have hmap : ∀ {α β : Type} {f : α → β} {r : Except WaitError α},
      r.map f = .error .tooLong ↔ r = .error .tooLong := by
    intro α β f r
    cases r with
    | error e => cases e; exact iff_of_true rfl rfl
    | ok a => exact iff_of_false nofun nofun
  unfold HeadersAskTooMuch
  rw [ofHeaders_eq, hmap]
  cases Http.readableHeader? "retry-after-ms" headers with
  | none => exact iff_of_false nofun nofun
  | some s =>
    rw [Option.elim, ofMillisText?_eq_error_iff]
    constructor
    · rintro ⟨x, hx, htoo⟩
      exact ⟨s, x, rfl, hx, htoo⟩
    · rintro ⟨_, x, heq, hx, htoo⟩
      obtain rfl := Option.some.inj heq
      exact ⟨x, hx, htoo⟩

/-- Whatever stands in the headers, a wait that is heeded is longer than nothing and shorter than a
minute. -/
theorem between_of_ofHeaders (h : ofHeaders headers = .ok (some d)) :
    0 < d ∧ d < Duration.ofSeconds 60 := by
  have hheeded : heeded d = true := by
    rw [ofHeaders_eq] at h
    cases hmillis : (Http.readableHeader? "retry-after-ms" headers).elim (.ok none)
        ofMillisText? with
    | error e =>
      rw [hmillis] at h
      cases h
    | ok millis =>
      rw [hmillis] at h
      rcases Option.or_eq_some_iff.mp (Except.ok.inj h) with hd | ⟨-, hd⟩
      · exact (Option.filter_eq_some_iff.mp hd).2
      · exact (Option.filter_eq_some_iff.mp hd).2
  unfold heeded at hheeded
  rw [Bool.and_eq_true, decide_eq_true_eq, decide_eq_true_eq] at hheeded
  exact hheeded

end RetryAfter

namespace RemoteError

variable {status : Nat} {headers : List Http.Header} {body : String} {d : Duration}

theorem ofReply_of_ne (h : status ≠ 429) (headers : List Http.Header) (body : String) :
    ∃ e, ofReply status headers body = .ok e ∧ ∀ retryAfter, e ≠ .rateLimited retryAfter := by
  unfold ofReply
  rw [if_neg h]
  split
  · exact ⟨_, rfl, nofun⟩
  · split
    · exact ⟨_, rfl, nofun⟩
    · split
      · exact ⟨_, rfl, nofun⟩
      · exact ⟨_, rfl, nofun⟩

theorem ofReply_tooManyRequests (headers : List Http.Header) (body : String) :
    ofReply 429 headers body = (RetryAfter.ofHeaders headers).map .rateLimited := rfl

/-- Every reply is classified but one of status 429 whose milliseconds ask too much, and whatever
a service asks for, what is waited for it is longer than nothing and shorter than a minute. -/
theorem ofReply_classifies_iff (status : Nat) (headers : List Http.Header) (body : String) :
    ((∃ e, ofReply status headers body = .ok e) ↔
      ¬ (status = 429 ∧ RetryAfter.HeadersAskTooMuch headers)) ∧
      ∀ d, ofReply status headers body = .ok (.rateLimited (some d)) →
        0 < d ∧ d < Duration.ofSeconds 60 := by
  by_cases h : status = 429
  · subst h
    rw [ofReply_tooManyRequests, ← RetryAfter.ofHeaders_eq_error_iff]
    cases hheaders : RetryAfter.ofHeaders headers with
    | error e =>
      cases e
      exact ⟨iff_of_false nofun (not_not_intro ⟨rfl, rfl⟩), nofun⟩
    | ok retryAfter =>
      refine ⟨iff_of_true ⟨_, rfl⟩ (fun h => nomatch h.2), fun d hd => ?_⟩
      obtain rfl : retryAfter = some d := RemoteError.rateLimited.inj (Except.ok.inj hd)
      exact RetryAfter.between_of_ofHeaders hheaders
  · obtain ⟨e, he, hother⟩ := ofReply_of_ne h headers body
    refine ⟨iff_of_true ⟨e, he⟩ (fun hstatus => h hstatus.1), fun d hd => ?_⟩
    exact absurd (Except.ok.inj (he.symm.trans hd)) (hother _)

/-- A minute of milliseconds is too long to be heeded; the seconds are heeded in its place. -/
theorem ofReply_classifies_minute :
    ofReply 429 [⟨"retry-after-ms", "6e4"⟩, ⟨"retry-after", " 7 "⟩] "" =
        .ok (.rateLimited (some 7000000000)) ∧
      0 < (7000000000 : Duration) ∧ (7000000000 : Duration) < Duration.ofSeconds 60 := by
  have h : ofReply 429 [⟨"retry-after-ms", "6e4"⟩, ⟨"retry-after", " 7 "⟩] "" =
      .ok (.rateLimited (some 7000000000)) := by decide +kernel
  exact ⟨h, (ofReply_classifies_iff 429 _ _).2 7000000000 h⟩

/-- A reply that asks for an infinite number of milliseconds is not classified. -/
theorem not_classifies_infinite :
    ¬ ∃ e, ofReply 429 [⟨"retry-after-ms", "inf"⟩] "" = .ok e := by
  have h : ofReply 429 [⟨"retry-after-ms", "inf"⟩] "" = .error .tooLong := by decide +kernel
  rintro ⟨e, he⟩
  exact nomatch h.symm.trans he

end RemoteError

end SmellWatch
