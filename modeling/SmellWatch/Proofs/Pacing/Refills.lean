import SmellWatch.Proofs.Pacing.Floats
import SmellWatch.Proofs.Pacing.Pursuit
/-! A search for a token ends, also where tokens are counted in floats.

However it is rounded, what is earned in a millisecond or more is 2^-18 of a token at least
(`earned_spec`), and as long as there is no token that much makes a difference
(`IsSound.filled`).  So whoever looks again after a millisecond finds less missing than before,
as long as nobody else takes tokens (`IsSound.lack_lt`). -/

namespace SmellWatch

namespace TokenBucket

open Floats Float.Model.UnpackedFloat

variable {b : TokenBucket Float} {now : Duration}

/-! ## What is earned -/

theorem millis_spec (d : Duration) :
    IsAmount (parts (TokenNumber.millis d)) ∧
      (Duration.nanosPerMilli ≤ d → AtLeast (-2) (parts (TokenNumber.millis d))) := by
  have hparts : parts (TokenNumber.millis d) =
      repack (.mul .binary64 (repack (.add .binary64
        (parts (Float.ofNat (d / Duration.nanosPerSecond)))
        (repack (.div .binary64 (parts (Float.ofNat (d % Duration.nanosPerSecond)))
          (.finite .positive (10 ^ 9 * 2 ^ 23) (-23) (by decide))))))
        (.finite .positive (1000 * 2 ^ 43) (-43) (by decide))) := rfl
  have hbillion : top (10 ^ 9 * 2 ^ 23) (-23) = 29 := by decide
  have hthousand : top (1000 * 2 ^ 43) (-43) = 9 := by decide
  have hcanonical : IsCanonical (1000 * 2 ^ 43) (-43) := ⟨by decide, by decide, .inl (by decide)⟩
  have hsum := isSum_add (isAmount_ofNat (d / Duration.nanosPerSecond))
    (isAmount_div (isAmount_ofNat (d % Duration.nanosPerSecond)) (n := 10 ^ 9 * 2 ^ 23) (t := -23)
      (by decide))
  rw [hparts]
  refine ⟨isAmount_mul hsum.isAmount hcanonical _, fun hd => ?_⟩
  have hleast : AtLeast (-11) _ := hsum.atLeast (-11) ?_
  · exact atLeast_mul hleast (.some hcanonical (by decide) _ hthousand.ge) (by decide)
  · -- a second or more in whole seconds, or 2^19 nanoseconds or more of a second
    by_cases hsecond : d < Duration.nanosPerSecond
    · right
      rw [Nat.mod_eq_of_lt hsecond]
      have hlarge : 2 ^ 19 ≤ d := hd.trans' (by decide)
      have hlog := (Nat.le_log2 (pos_of_le_log2 hlarge).ne').mpr hlarge
      have hleast : AtLeast 19 _ := (atLeast_ofNat (pos_of_le_log2 hlarge)).mono (by omega)
      have := atLeast_div hleast (n := 10 ^ 9 * 2 ^ 23) (t := -23) (by decide)
        (by rw [hbillion]; decide)
      rw [hbillion] at this
      exact this
    · left
      have hpos : 0 < d / Duration.nanosPerSecond :=
        Nat.div_pos (Nat.le_of_not_lt hsecond) (by decide)
      exact (atLeast_ofNat hpos).mono (by omega)

theorem earned_spec (hcapacity : 1 ≤ b.capacity) (d : Duration) :
    (IsAmount (parts (b.earned d)) ∨ parts (b.earned d) = .notANumber) ∧
      (Duration.nanosPerMilli ≤ d → AtLeast (-18) (parts (b.earned d))) := by
  have hparts : parts (b.earned d) =
      repack (.div .binary64 (repack (.mul .binary64 (parts (TokenNumber.millis d))
        (parts (Float.ofNat b.capacity))))
        (.finite .positive (60000 * 2 ^ 37) (-37) (by decide))) := rfl
  have hminute : top (60000 * 2 ^ 37) (-37) = 15 := by decide
  have hmany : AtLeast 0 (parts (Float.ofNat b.capacity)) :=
    (atLeast_ofNat hcapacity).mono (by omega)
  obtain ⟨hmillis, hleast⟩ := millis_spec d
  rw [hparts]
  constructor
  · rcases isAmount_mul_or hmillis hmany with hproduct | hnone
    · exact .inl (isAmount_div hproduct _)
    · rw [hnone]
      exact .inr repack_notANumber
  · intro hd
    have hproduct := atLeast_mul (hleast hd) hmany (by decide)
    have := atLeast_div hproduct (n := 60000 * 2 ^ 37) (t := -37) (by decide)
      (by rw [hminute]; decide)
    rw [hminute] at this
    exact this

/-- Nothing is earned in no time. -/
theorem earned_zero (hcapacity : 1 ≤ b.capacity) :
    (∃ s, parts (b.earned 0) = .zero s) ∨ parts (b.earned 0) = .notANumber := by
  have hparts : parts (b.earned 0) =
      repack (.div .binary64 (repack (.mul .binary64 (.zero .positive)
        (parts (Float.ofNat b.capacity))))
        (.finite .positive (60000 * 2 ^ 37) (-37) (by decide))) := rfl
  have hmany := atLeast_ofNat hcapacity
  rw [hparts]
  generalize parts (Float.ofNat b.capacity) = u at hmany ⊢
  cases hmany with
  | @some m e _ _ hm _ =>
    have hproduct : repack (.mul .binary64 (.zero .positive) (.finite .positive m e hm)) =
      .zero .positive := repack_zero _
    rw [hproduct]
    exact .inl ⟨_, repack_zero _⟩
  | endless =>
    have hproduct : repack (.mul .binary64 (.zero .positive) (.infinity .positive)) =
      .notANumber := repack_notANumber
    rw [hproduct]
    exact .inr repack_notANumber

/-! ## The tokens -/

/-- A bucket as it can be: it holds some amount of tokens, and has room for one. -/
structure IsSound (b : TokenBucket Float) : Prop where
  capacity : 1 ≤ b.capacity
  tokens : IsAmount (parts b.tokens)

/-- What is missing for a token, in the smallest amounts there are. -/
def lack (b : TokenBucket Float) : Nat := units one - units (parts b.tokens)

theorem isSound_full (rate : Nat) (now : Duration) : (full rate now : TokenBucket Float).IsSound :=
  ⟨Nat.le_max_left 1 rate, isAmount_ofNat _⟩

/-- What is in a bucket that was looked at: all that there was with what was earned, or as much as
it holds. -/
theorem tokens_refill (b : TokenBucket Float) (now : Duration) :
    ((b.refill now).tokens = b.tokens + b.earned (now - b.refilledAt) ∧
      parts (b.tokens + b.earned (now - b.refilledAt)) ≠ .notANumber) ∨
      (b.refill now).tokens = Float.ofNat b.capacity := by
  have htokens : (b.refill now).tokens =
      if TokenNumber.atMost (b.tokens + b.earned (now - b.refilledAt))
        (Float.ofNat b.capacity) = true
      then b.tokens + b.earned (now - b.refilledAt) else Float.ofNat b.capacity := rfl
  rw [htokens]
  split
  · rename_i hle
    refine .inl ⟨rfl, fun hnone => ?_⟩
    rw [atMost_eq, hnone] at hle
    cases hle
  · exact .inr rfl

/-- What a bucket has after it was filled up, against what it had. -/
structure Filled (b : TokenBucket Float) (d : Duration) (tokens : Float) : Prop where
  isAmount : IsAmount (parts tokens)
  /-- A millisecond or more makes a difference, as long as there is no token. -/
  more : Duration.nanosPerMilli ≤ d → ¬ AtLeast 0 (parts tokens) →
    units (parts b.tokens) < units (parts tokens)
  /-- A second look changes nothing, as long as there is no token. -/
  same : d = 0 → ¬ AtLeast 0 (parts tokens) → units (parts tokens) = units (parts b.tokens)

theorem IsSound.filled (h : b.IsSound) (now : Duration) :
    b.Filled (now - b.refilledAt) (b.refill now).tokens := by
  obtain ⟨hearned, hleast⟩ := earned_spec h.capacity (now - b.refilledAt)
  rcases b.tokens_refill now with ⟨hsum, hsome⟩ | hfull
  · rw [hsum, parts_add] at *
    have hearned : IsAmount (parts (b.earned (now - b.refilledAt))) := by
      refine hearned.resolve_right fun hnone => hsome ?_
      rw [hnone, add_notANumber]
      exact repack_notANumber
    have hsum := isSum_add h.tokens hearned
    refine ⟨hsum.isAmount, fun hd hbelow => hsum.more (hleast hd) hbelow, fun hd _ => ?_⟩
    rw [hd] at hearned
    rw [hd, parts_add]
    rcases earned_zero h.capacity with ⟨s, hzero⟩ | hnone
    · rw [hzero]
      exact units_add_zero h.tokens s
    · rw [hnone] at hearned
      cases hearned
  · rw [hfull]
    have hmany : AtLeast 0 (parts (Float.ofNat b.capacity)) :=
      (atLeast_ofNat h.capacity).mono (by omega)
    exact ⟨hmany.isAmount, fun _ hbelow => absurd hmany hbelow, fun _ hbelow => absurd hmany hbelow⟩


theorem atMost_one_iff (x : Float) (hx : IsAmount (parts x)) :
    TokenNumber.atMost (TokenNumber.ofNat 1) x = true ↔ AtLeast 0 (parts x) := by
  rw [atMost_eq]
  exact one_le_iff hx

theorem IsSound.refill (h : b.IsSound) (now : Duration) : (b.refill now).IsSound :=
  ⟨h.capacity, (h.filled now).isAmount⟩

/-- A token is there, or it is taken, as soon as there is one. -/
theorem IsSound.taken_iff (h : b.IsSound) (now : Duration) :
    (b.tryTake now).1 = true ↔ AtLeast 0 (parts (b.refill now).tokens) := by
  rw [← atMost_one_iff _ (h.refill now).tokens]
  unfold tryTake
  dsimp only
  split
  · exact ⟨fun _ => ‹_›, fun _ => rfl⟩
  · exact ⟨fun h => absurd h Bool.false_ne_true, fun h => absurd h ‹_›⟩

theorem IsSound.tryTake (h : b.IsSound) (now : Duration) : (b.tryTake now).2.IsSound := by
  cases ht : (b.tryTake now).1 with
  | false =>
    rw [tryTake_of_not ht]
    exact h.refill now
  | true =>
    have hone := (h.taken_iff now).mp ht
    refine ⟨(tryTake_capacity now b).symm ▸ h.capacity, ?_⟩
    have htokens : (b.tryTake now).2.tokens = (b.refill now).tokens - Float.ofNat 1 := by
      unfold TokenBucket.tryTake at ht ⊢
      dsimp only at ht ⊢
      split
      · rfl
      · rename_i hnone
        rw [if_neg hnone] at ht
        cases ht
    rw [htokens, parts_sub]
    exact isAmount_sub_one hone

/-- Whoever has found no token and looks again after a millisecond or later finds less missing,
and a look at the time to sleep does not make it more. -/
theorem IsSound.lack_lt (h : b.IsSound) (hlater : b.refilledAt + Duration.nanosPerMilli ≤ now)
    (hnone : (b.tryTake now).1 = false) : ((b.refill now).refill now).lack < b.lack := by
  have hbelow : ¬ AtLeast 0 (parts (b.refill now).tokens) := by
    rw [← h.taken_iff, hnone]
    exact Bool.false_ne_true
  have hfilled := h.filled now
  have hagain := (h.refill now).filled now
  have hmore := hfilled.more (Nat.le_sub_of_add_le (Nat.add_comm _ _ ▸ hlater)) hbelow
  have hlack : units one - units (parts ((b.refill now).refill now).tokens) ≤
      units one - units (parts (b.refill now).tokens) := by
    by_cases hthere : AtLeast 0 (parts ((b.refill now).refill now).tokens)
    · have := one_le_units hthere
      omega
    · rw [hagain.same (Nat.sub_self now) hthere]
  have hone := units_lt_one hfilled.isAmount hbelow
  show units one - _ < units one - units (parts b.tokens)
  omega

end TokenBucket

/-! ## Pursuits -/

/-- How many more failures there can be that are worth another call. -/
def RetryPolicy.callsLeft (policy : RetryPolicy) (a : Attempts) : Nat :=
  (policy.maxRateLimitAttempts - a.rateLimited) + (policy.maxServerRetries - a.server)

theorem RetryPolicy.callsLeft_lt {policy : RetryPolicy} {e : RemoteError} {a : Attempts}
    {d : Duration} (h : (policy.nextDelay e a).1 = some d) :
    policy.callsLeft (policy.nextDelay e a).2 < policy.callsLeft a := by
  have hserver : ∀ x, (if policy.maxServerRetries < a.server + 1 then
        ((none : Option Duration), { a with server := a.server + 1 })
      else (some (Duration.ofSeconds (a.server + 1)), { a with server := a.server + 1 })) = x →
      x.1 = some d → policy.callsLeft x.2 < policy.callsLeft a := by
    rintro x rfl hx
    split at hx
    · cases hx
    · rename_i hfew
      rw [if_neg hfew]
      unfold callsLeft
      dsimp only
      omega
  cases e with
  | rateLimited hint =>
    unfold nextDelay at h ⊢
    dsimp only at h ⊢
    split at h
    · cases h
    · rename_i hfew
      rw [if_neg hfew]
      unfold callsLeft
      dsimp only
      omega
  | server status detail => exact hserver _ rfl h
  | timeout => exact hserver _ rfl h
  | auth _ | canceled | malformed _ | other _ => cases h

namespace Pursuit

open Floats

variable {β : Type} {b : TokenBucket Float} {now time : Duration} {canceled : Bool} {p : Pursuit}

/-- How far a pursuit is from its next call: what is missing for a token, if it has looked for one
and sleeps for a millisecond or more. -/
def search (b : TokenBucket Float) (p : Pursuit) : Nat :=
  match p.phase with
  | .calling => 0
  | .seeking time =>
    if b.refilledAt + Duration.nanosPerMilli ≤ time then b.lack + 1 else units one + 2
  | .resting _ => units one + 2

theorem search_pos (b : TokenBucket Float) (hwakes : p.wakesAt? = some time) : 0 < p.search b := by
  unfold search
  unfold wakesAt? at hwakes
  split
  · rename_i hphase
    rw [hphase] at hwakes
    cases hwakes
  · split <;> omega
  · omega

/-- What a pursuit does that is woken, and where this leaves the bucket. -/
inductive Wakes (now : Duration) (canceled : Bool) (b : TokenBucket Float) (p : Pursuit)
    (time : Duration) : Next β × Pursuit × TokenBucket Float → Prop
  | canceled : Wakes now canceled b p time (.ends (.error .canceled), p, b)
  | early (hearly : now < time) : Wakes now canceled b p time (.sleeps time, p, b)
  | calls (b' : TokenBucket Float) (hsound : b'.IsSound) :
    Wakes now canceled b p time (.calls, { p with phase := .calling }, b')
  /-- It sleeps, and is nearer to its next call. -/
  | sleeps (b' : TokenBucket Float) (hsound : b'.IsSound) (next : Duration)
      (hnearer : ({ p with phase := .seeking next } : Pursuit).search b' < p.search b) :
      Wakes now canceled b p time (.sleeps next, { p with phase := .seeking next }, b')

theorem wakes (hsound : b.IsSound) (hwakes : p.wakesAt? = some time) :
    Wakes now canceled b p time (p.resume now canceled b : Next β × _) := by
  have hresumes : Resumes now canceled b p time (p.resume now canceled b : Next β × _) :=
    resumes hwakes
  generalize p.resume now canceled b = x at hresumes ⊢
  cases hresumes with
  | canceled => exact .canceled
  | early _ hearly => exact .early hearly
  | calls _ _ _ => exact .calls _ (hsound.tryTake now)
  | seeks _ hdue hnone next hnext =>
    refine .sleeps _ ((hsound.refill now).refill now) next ?_
    -- it sleeps for a millisecond at least
    have hlong : now + Duration.nanosPerMilli ≤ next := by
      rw [hnext]
      have hone : 1 ≤ ((b.refill now).slice now).1 :=
        le_min (le_max_left 1 _) (by decide : 1 ≤ TokenBucket.longestSlice)
      have := Nat.mul_le_mul_right Duration.nanosPerMilli hone
      rw [one_mul] at this
      exact Nat.add_le_add_left this now
    have hsearch : ({ p with phase := .seeking next } : Pursuit).search
        ((b.refill now).refill now) = ((b.refill now).refill now).lack + 1 := if_pos hlong
    have hlack : ∀ b : TokenBucket Float, b.lack ≤ units one := fun b => Nat.sub_le _ _
    have hlast := hlack ((b.refill now).refill now)
    rw [hsearch]
    unfold search
    split
    · rename_i hphase
      unfold wakesAt? at hwakes
      rw [hphase] at hwakes
      cases hwakes
    · rename_i looked hphase
      split
      · rename_i hlooked
        have htime : looked = time := by
          unfold wakesAt? at hwakes
          rw [hphase] at hwakes
          exact Option.some.inj hwakes
        have := hsound.lack_lt ((htime ▸ hlooked).trans hdue) hnone
        omega
      · omega
    · omega

end Pursuit

end SmellWatch
