import SmellWatch.Proofs.Pacing.Looks
import SmellWatch.Proofs.Pacing.Run
/-! A search for a token ends as soon as there is one.

Whole milliseconds are what a sleeper counts: the wait, rounded up, is the `delay` of a bucket.
A sleep is never longer than the delay, and shortens it by its length (`delay_add`), so sleeping
in slices neither overshoots nor takes longer in all.  The delay is a minute at most, and each
slice but the last is a second, so there are sixty sleeps at most. -/

namespace SmellWatch

namespace TokenBucket

variable {b b' : TokenBucket ℚ} {now later c fuel : Nat} {cancelAt : Option Nat}

/-- The whole milliseconds until there is a token. -/
def delay (now : Nat) (b : TokenBucket ℚ) : Nat :=
  TokenNumber.ceil (b.wait (Duration.ofMillis now)).1

/-- The bucket at a time, less one token. -/
def lessOne (now : Duration) (b : TokenBucket ℚ) : TokenBucket ℚ :=
  { (b.available now).2 with tokens := (b.available now).1 - 1 }

/-! ## The delay -/

theorem millis_ofMillis_add (now ms : Nat) :
    (TokenNumber.millis (Duration.ofMillis (now + ms) - Duration.ofMillis now) : ℚ) = ms := by
  have hdiff : Duration.ofMillis (now + ms) - Duration.ofMillis now = ms * 1000000 := by
    show (now + ms) * 1000000 - now * 1000000 = ms * 1000000
    rw [← Nat.sub_mul, Nat.add_sub_cancel_left]
  show ((Duration.ofMillis (now + ms) - Duration.ofMillis now : ℕ) : ℚ) / 1000000 = ms
  rw [hdiff]
  push_cast
  ring

theorem taken_iff_delay (hcapacity : 1 ≤ b.capacity) (now : Nat) :
    (b.tryTake (Duration.ofMillis now)).1 = true ↔ b.delay now = 0 := by
  have hnonneg : 0 ≤ (b.wait (Duration.ofMillis now)).1 := by
    rw [wait_fst hcapacity]
    exact le_max_left _ _
  rw [taken_iff_wait hcapacity]
  show _ ↔ ⌈(b.wait (Duration.ofMillis now)).1⌉₊ = 0
  rw [Nat.ceil_eq_zero]
  exact ⟨le_of_eq, fun h => le_antisymm h hnonneg⟩

theorem delay_add (hcapacity : 1 ≤ b.capacity) (hseen : b.refilledAt ≤ Duration.ofMillis now)
    (ms : Nat) : b.delay (now + ms) = b.delay now - ms := by
  show ⌈(b.wait (Duration.ofMillis (now + ms))).1⌉₊ = ⌈(b.wait (Duration.ofMillis now)).1⌉₊ - ms
  rw [wait_of_le hcapacity hseen (Run.ofMillis_mono (Nat.le_add_right now ms)), millis_ofMillis_add,
    Nat.ceil_mono.map_max, Nat.ceil_zero, Nat.ceil_sub_natCast]
  exact Nat.max_eq_right (Nat.zero_le _)

theorem delay_le (h : b.IsProper) (now : Nat) : b.delay now ≤ 60000 := by
  have hcapacity : (1 : ℚ) ≤ b.capacity := Nat.one_le_cast.mpr h.capacity
  have hcredit := h.tokens.trans (b.tokens_le_credit (Duration.ofMillis now))
  show ⌈(b.wait (Duration.ofMillis now)).1⌉₊ ≤ 60000
  rw [wait_fst h.capacity, Nat.ceil_le]
  refine max_le (by norm_num) ?_
  rw [div_le_iff₀ (by linarith)]
  push_cast
  linarith

theorem tryTake_snd (h : (b.tryTake (Duration.ofMillis now)).1 = true) :
    (b.tryTake (Duration.ofMillis now)).2 = b.lessOne (Duration.ofMillis now) := by
  rw [tryTake_eq] at h ⊢
  split at h
  · rename_i hmany
    rw [if_pos hmany]
    rfl
  · cases h

theorem Alike.delay (h : Alike (Duration.ofMillis now) b b') (hlater : now ≤ later) :
    b.delay later = b'.delay later := by
  unfold TokenBucket.delay wait
  rw [h _ (Run.ofMillis_mono hlater)]

theorem Alike.lessOne (h : Alike (Duration.ofMillis now) b b') (hlater : now ≤ later) :
    b.lessOne (Duration.ofMillis later) = b'.lessOne (Duration.ofMillis later) := by
  unfold TokenBucket.lessOne available
  rw [h _ (Run.ofMillis_mono hlater)]

/-! ## One round -/

/-- How long one sleeps who has found no token. -/
def nap (now : Nat) (b : TokenBucket ℚ) : Nat := min (max 1 (b.delay now)) longestSlice

theorem slice_refill (b : TokenBucket ℚ) (now : Nat) :
    (b.refill (Duration.ofMillis now)).slice (Duration.ofMillis now) =
      (b.nap now, b.refill (Duration.ofMillis now)) := by
  have hfst : ((b.refill (Duration.ofMillis now)).slice (Duration.ofMillis now)).1 =
      min (max 1 (TokenNumber.ceil
        ((b.refill (Duration.ofMillis now)).wait (Duration.ofMillis now)).1)) longestSlice := rfl
  have hwait : (b.refill (Duration.ofMillis now)).wait (Duration.ofMillis now) =
      b.wait (Duration.ofMillis now) := by
    unfold wait
    rw [refill_refill]
  refine Prod.ext (hfst.trans ?_) ((slice_snd _ _).trans (refill_refill b _))
  rw [hwait]
  rfl

theorem acquireFor_of_taken (h : (b.tryTake (Duration.ofMillis now)).1 = true) (fuel : Nat)
    (cancelAt : Option Nat) :
    b.acquireFor (fuel + 1) now cancelAt = (true, now, b.lessOne (Duration.ofMillis now)) := by
  unfold acquireFor
  rw [← Prod.eta (b.tryTake (Duration.ofMillis now)), h, tryTake_snd h]
  rfl

theorem acquireFor_of_none (h : (b.tryTake (Duration.ofMillis now)).1 = false) (fuel : Nat)
    (cancelAt : Option Nat) :
    b.acquireFor (fuel + 1) now cancelAt =
      match cancelAt with
      | some c =>
        if c < now + b.nap now then (false, c, b.refill (Duration.ofMillis now))
        else (b.refill (Duration.ofMillis now)).acquireFor fuel (now + b.nap now) (some c)
      | none => (b.refill (Duration.ofMillis now)).acquireFor fuel (now + b.nap now) none := by
  rw [acquireFor, tryTake_of_not h]
  dsimp only
  rw [if_neg Bool.false_ne_true, slice_refill]
  cases cancelAt <;> rfl

/-- One has slept, and the end of the delay is as far away as it was. -/
structure Slept (now : Nat) (b : TokenBucket ℚ) (later : Nat) (b' : TokenBucket ℚ) : Prop where
  proper : b'.IsProper
  seen : b'.refilledAt ≤ Duration.ofMillis later
  alike : Alike (Duration.ofMillis now) b' b
  le_end : later ≤ now + b.delay now
  same_end : later + b'.delay later = now + b.delay now
  /-- It takes a second less, or nothing more. -/
  shorter : b'.delay later ≤ b.delay now - longestSlice

theorem slept_of_none (h : b.IsProper) (hseen : b.refilledAt ≤ Duration.ofMillis now)
    (hnone : (b.tryTake (Duration.ofMillis now)).1 = false) :
    Slept now b (now + b.nap now) (b.refill (Duration.ofMillis now)) := by
  have halike : Alike (Duration.ofMillis now) (b.refill (Duration.ofMillis now)) b :=
    fun _ hlater => refill_refill_of_le hseen hlater
  have hpos : 0 < b.delay now := by
    refine Nat.pos_of_ne_zero fun hzero => ?_
    rw [(taken_iff_delay h.capacity now).mpr hzero] at hnone
    cases hnone
  have hnap : b.nap now = min (b.delay now) longestSlice := by
    unfold nap
    rw [Nat.max_eq_right hpos]
  have hrest : (b.refill (Duration.ofMillis now)).delay (now + b.nap now) =
      b.delay now - b.nap now := by
    rw [halike.delay (Nat.le_add_right now _), delay_add h.capacity hseen]
  refine ⟨h.refill _, Run.ofMillis_mono (Nat.le_add_right now _), halike, ?_, ?_, ?_⟩ <;> omega

/-! ## All rounds -/

/-- So many seconds of delay take so many rounds, and one more. -/
theorem acquireFor_eq (h : b.IsProper) (hseen : b.refilledAt ≤ Duration.ofMillis now)
    (hdelay : b.delay now ≤ longestSlice * fuel) (hcancel : ∀ c ∈ cancelAt, now + b.delay now ≤ c) :
    b.acquireFor (fuel + 1) now cancelAt =
      (true, now + b.delay now, b.lessOne (Duration.ofMillis (now + b.delay now))) := by
  induction fuel generalizing now b with
  | zero =>
    have hzero : b.delay now = 0 := Nat.le_zero.mp hdelay
    rw [acquireFor_of_taken ((taken_iff_delay h.capacity now).mpr hzero), hzero, Nat.add_zero]
  | succ fuel ih =>
    cases ht : (b.tryTake (Duration.ofMillis now)).1 with
    | true => rw [acquireFor_of_taken ht, (taken_iff_delay h.capacity now).mp ht, Nat.add_zero]
    | false =>
      have hslept := slept_of_none h hseen ht
      have hshorter := hslept.shorter
      have hrest := ih hslept.proper hslept.seen (by rw [Nat.mul_succ] at hdelay; omega)
        (fun c hc => hslept.same_end ▸ hcancel c hc)
      rw [hslept.same_end, hslept.alike.lessOne (Nat.le_add_right now _)] at hrest
      rw [acquireFor_of_none ht]
      -- a cancellation comes when the delay is over at the earliest, so not in this sleep
      cases cancelAt with
      | none => exact hrest
      | some c =>
        have hlate : ¬ c < now + b.nap now :=
          Nat.not_lt_of_le (hslept.le_end.trans (hcancel c rfl))
        dsimp only
        rw [if_neg hlate]
        exact hrest

/-- One who is canceled before the end of the delay takes no token. -/
theorem acquireFor_of_canceled (h : b.IsProper) (hseen : b.refilledAt ≤ Duration.ofMillis now)
    (hdelay : b.delay now ≤ longestSlice * fuel) (hnow : now ≤ c) (hc : c < now + b.delay now) :
    ∃ b', b.acquireFor (fuel + 1) now (some c) = (false, c, b') ∧
      Alike (Duration.ofMillis c) b' b := by
  induction fuel generalizing now b with
  | zero => omega
  | succ fuel ih =>
    have hnone : (b.tryTake (Duration.ofMillis now)).1 = false := by
      rw [← Bool.not_eq_true, taken_iff_delay h.capacity]
      omega
    have hslept := slept_of_none h hseen hnone
    have hlook : Alike (Duration.ofMillis c) (b.refill (Duration.ofMillis now)) b :=
      fun t ht => hslept.alike t ((Run.ofMillis_mono hnow).trans ht)
    rw [acquireFor_of_none hnone]
    dsimp only
    by_cases hearly : c < now + b.nap now
    · rw [if_pos hearly]
      exact ⟨_, rfl, hlook⟩
    · rw [if_neg hearly]
      have hshorter := hslept.shorter
      obtain ⟨b', hb', halike⟩ := ih hslept.proper hslept.seen
        (by rw [Nat.mul_succ] at hdelay; omega) (Nat.le_of_not_lt hearly) (hslept.same_end ▸ hc)
      exact ⟨b', hb', fun t ht => (halike t ht).trans (hlook t ht)⟩

/-- Sixty seconds of delay are the longest. -/
theorem acquireFor_of_many (h : b.IsProper) (hseen : b.refilledAt ≤ Duration.ofMillis now)
    (tries : Nat) (htries : 62 ≤ tries) (hcancel : ∀ c ∈ cancelAt, now + b.delay now ≤ c) :
    b.acquireFor tries now cancelAt =
      (true, now + b.delay now, b.lessOne (Duration.ofMillis (now + b.delay now))) := by
  obtain ⟨fuel, rfl⟩ := Nat.exists_eq_add_of_le' (Nat.one_le_of_lt htries)
  refine acquireFor_eq h hseen ((delay_le h now).trans ?_) hcancel
  unfold longestSlice
  omega

theorem acquire_of_late (hnow : ∀ c ∈ cancelAt, now < c) :
    b.acquire now cancelAt = b.acquireFor acquireFuel now cancelAt := by
  unfold acquire
  refine if_neg fun hearly => ?_
  obtain ⟨c, hc, hle⟩ := (Option.any_eq_true _ _).mp hearly
  exact Nat.not_lt_of_le (of_decide_eq_true hle) (hnow c hc)

/-! ## All of it -/

theorem History.isProper (r : History) : r.bucket.IsProper := by
  induction r with
  | start rate now => exact ⟨Nat.le_max_left 1 rate, Nat.cast_nonneg (max 1 rate)⟩
  | next r now what ih =>
    cases what with
    | tries =>
      show (r.bucket.tryTake now).2.IsProper
      cases ht : (r.bucket.tryTake now).1 with
      | true => exact ih.taken ht
      | false =>
        rw [tryTake_of_not ht]
        exact ih.refill now
    | resets => exact ⟨ih.capacity, Nat.cast_nonneg r.bucket.capacity⟩
    | waits | counts =>
      rw [History.next_bucket_of_look rfl]
      exact ih.refill now

end TokenBucket

/-- A pursuit that is canceled while it waits is over when it is woken next, and has left the
bucket alone. -/
theorem Pursuit.State.over_of_canceled {β : Type} {s : Pursuit.State ℚ β} {time : Duration}
    (hopen : s.result? = none) (hwakes : s.pursuit.wakesAt? = some time) (now : Duration) :
    (s.step now .canceled).step now .woken =
      { s with canceled := true, result? := some (.error .canceled) } := by
  have hturn := Pursuit.turn_step now (s.step now .canceled) .woken
  generalize (s.step now .canceled).step now .woken = s' at hturn
  cases hturn with
  | still _ hidle => exact absurd ⟨hopen, time, hwakes, .inl rfl⟩ hidle
  | leaves _ _ _ _ => rfl
  | calls _ _ _ hfree _ _ => cases hfree
  | seeks _ _ _ _ hfree _ _ _ => cases hfree

namespace TokenBucket

/-- A search for a token that nobody comes in between of succeeds when the wait that is told at
its start is over, in whole milliseconds, and takes one token; sixty-two rounds are always enough.
If it is canceled before that it ends at once, and those who come later find the bucket as if it
had not been; if it is canceled before it starts, it does not even look.  And a search that others
come in between of, whatever they do, ends without a token when it is woken after it was
canceled. -/
theorem acquires_promptly (b : TokenBucket ℚ) (h : b.IsProper) (now : Nat)
    (hseen : b.refilledAt ≤ Duration.ofMillis now) :
    (∀ cancelAt : Option Nat, (∀ c ∈ cancelAt, now < c ∧ now + b.delay now ≤ c) →
      b.acquire now cancelAt =
        (true, now + b.delay now, b.lessOne (Duration.ofMillis (now + b.delay now)))) ∧
    (∀ tries, 62 ≤ tries → b.acquireFor tries now none = b.acquire now none) ∧
    (∀ c, c ≤ now → b.acquire now (some c) = (false, now, b)) ∧
    (∀ c, now < c → c < now + b.delay now → ∃ b', b.acquire now (some c) = (false, c, b') ∧
      Alike (Duration.ofMillis c) b' b) ∧
    ∀ (β : Type) (r : Pursuit.Run ℚ β) (time : Duration), r.state.result? = none →
      r.state.pursuit.wakesAt? = some time → ∀ now,
      ((r.next now .canceled).next now .woken).state =
        { r.state with canceled := true, result? := some (.error .canceled) } := by
  have hfuel : 62 ≤ acquireFuel := by decide
  have hacquires : ∀ cancelAt : Option Nat, (∀ c ∈ cancelAt, now < c ∧ now + b.delay now ≤ c) →
      b.acquire now cancelAt =
        (true, now + b.delay now, b.lessOne (Duration.ofMillis (now + b.delay now))) := by
    intro cancelAt hcancel
    rw [acquire_of_late fun c hc => (hcancel c hc).1]
    exact acquireFor_of_many h hseen acquireFuel hfuel fun c hc => (hcancel c hc).2
  refine ⟨hacquires, fun tries htries => ?_, fun c hc => ?_, fun c hnow hc => ?_,
    fun β r time hopen hwakes now => r.state.over_of_canceled hopen hwakes now⟩
  · rw [hacquires none fun _ hc => nomatch hc]
    exact acquireFor_of_many h hseen tries htries fun _ hc => nomatch hc
  · unfold acquire
    exact if_pos (decide_eq_true hc)
  · have hlong : b.delay now ≤ longestSlice * 199 := (delay_le h now).trans (by decide)
    rw [acquire_of_late fun c' hc' => Option.some_inj.mp hc' ▸ hnow]
    exact acquireFor_of_canceled h hseen hlong hnow.le hc

/-- There is one token in a minute, and it was taken. -/
theorem acquires_promptly_emptied :
    History.emptied.bucket.delay 0 = 60000 ∧
      (History.emptied.bucket.acquire 0 none).1 = true ∧
      (History.emptied.bucket.acquire 0 none).2.1 = 60000 ∧
      (History.emptied.bucket.acquire 0 (some 1500)).1 = false ∧
      (History.emptied.bucket.acquire 0 (some 1500)).2.1 = 1500 ∧
      (((Pursuit.Run.start .default History.emptied.bucket : Pursuit.Run ℚ Unit).next 0
        .canceled).next 0 .woken).state.result? = some (.error .canceled) := by
  have hdelay : History.emptied.bucket.delay 0 = 60000 := by decide +kernel
  have hall := acquires_promptly History.emptied.bucket History.emptied.isProper 0
    History.emptied.refilledAt.le
  rw [hdelay] at hall
  obtain ⟨b', hcanceled, -⟩ := hall.2.2.2.1 1500 (by decide) (by decide)
  have hserved := hall.1 none fun _ hc => nomatch hc
  have hshared := hall.2.2.2.2 Unit (.start .default History.emptied.bucket) 0 rfl rfl 0
  exact ⟨hdelay, congrArg (·.1) hserved, congrArg (·.2.1) hserved, congrArg (·.1) hcanceled,
    congrArg (·.2.1) hcanceled, congrArg Pursuit.State.result? hshared⟩

end TokenBucket

end SmellWatch
