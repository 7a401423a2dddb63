import SmellWatch.Pacing.Acquire
import SmellWatch.Proofs.Pacing.Patience
/-! A bucket gives out no more tokens than it held and earned.

Any number of clients draw on one bucket: they try to take a token, look how long to wait or
how many tokens there are, or seek a token round by round until they have one.  A `Run` is
what was done to the bucket, and when; clients need not be told apart, and a round may come
at any time.

What a bucket earns while it is full is lost, at times that depend on every access.  So the
tokens that were taken since a moment are not known from the tokens that are left; but both
together never exceed a full bucket and what is earned since that moment
(`Run.taken_add_tokens_le`). -/

namespace SmellWatch

namespace TokenBucket

/-! ## Accesses -/

/-- What a client does with a bucket. -/
inductive Access
  | tries
  /-- It asks how long it has to wait. -/
  | waits
  /-- It asks how many tokens there are. -/
  | counts
  /-- A round of one who seeks a token: it gives up if it was canceled; else it tries, and if
  there is no token it asks how long to sleep before the next round. -/
  | seeks (canceled : Bool)
deriving DecidableEq

/-- Does what a client does; tells whether it has taken a token. -/
def access {α : Type} [TokenNumber α] (now : Duration) (b : TokenBucket α) :
    Access → Bool × TokenBucket α
  | .tries => b.tryTake now
  | .waits => (false, (b.wait now).2)
  | .counts => (false, (b.available now).2)
  | .seeks canceled =>
    match (Pursuit.ofPolicy .default).seek now canceled b with
    | ((.calls : Pursuit.Next Unit), _, b) => (true, b)
    | (_, _, b) => (false, b)

inductive Run
  | start (rate : Nat) (now : Duration)
  | next (past : Run) (now : Duration) (deed : Access)

namespace Run

def bucket : Run → TokenBucket ℚ
  | start rate now => full rate now
  | next r now deed => (r.bucket.access now deed).2

/-- The rate that the bucket was made for. -/
def rate : Run → Nat
  | start rate _ => rate
  | next r _ _ => r.rate

/-- The tokens that the bucket has room for. -/
def room (r : Run) : Nat := max 1 r.rate

/-- The time at the end of a run. -/
def clock : Run → Duration
  | start _ now => now
  | next _ now _ => now

/-- Time does not go back. -/
def IsTimely : Run → Prop
  | start _ _ => True
  | next r now _ => r.IsTimely ∧ r.clock ≤ now

instance decidableIsTimely : (r : Run) → Decidable r.IsTimely
  | start _ _ => isTrue trivial
  | next r now _ =>
    have := decidableIsTimely r
    inferInstanceAs (Decidable (r.IsTimely ∧ r.clock ≤ now))

/-- When tokens were taken, the latest first. -/
def takings : Run → List Duration
  | start _ _ => []
  | next r now deed => (if (r.bucket.access now deed).1 then [now] else []) ++ r.takings

/-- The tokens that were taken from one moment on. -/
def takenSince (r : Run) (since : Duration) : Nat := r.takings.countP (since ≤ ·)

/-- The tokens that were taken in a window of time. -/
def takenIn (r : Run) (since length : Duration) : Nat :=
  r.takings.countP fun t => since ≤ t ∧ t ≤ since + length

/-- A run goes on. -/
def after (r : Run) (l : List (Duration × Access)) : Run :=
  l.foldl (fun r x => r.next x.1 x.2) r

end Run

/-! ## What an access does -/

variable {b : TokenBucket ℚ} {now : Duration}

theorem refill_refill (b : TokenBucket ℚ) (now : Duration) :
    (b.refill now).refill now = b.refill now := by
  show TokenBucket.mk b.capacity ((b.refill now).refill now).tokens now =
    ⟨b.capacity, (b.refill now).tokens, now⟩
  rw [refill_refill_tokens]

/-- What an access does to a bucket, and whether it takes a token. -/
inductive Drawn (now : Duration) (b : TokenBucket ℚ) : Bool × TokenBucket ℚ → Prop
  /-- One who was canceled leaves the bucket alone. -/
  | untouched : Drawn now b (false, b)
  | seen : Drawn now b (false, b.refill now)
  | taken (h : 1 ≤ (b.refill now).tokens) :
      Drawn now b (true, { b.refill now with tokens := (b.refill now).tokens - 1 })

theorem drawn_tryTake (now : Duration) (b : TokenBucket ℚ) : Drawn now b (b.tryTake now) := by
  rw [tryTake_eq]
  split
  · exact .taken ‹_›
  · exact .seen

theorem wait_snd (now : Duration) (b : TokenBucket ℚ) : (b.wait now).2 = b.refill now := by
  unfold wait
  dsimp only
  split <;> rfl

/-- A round of one who was not canceled takes what a try takes; the look at the time to sleep
changes nothing. -/
theorem access_seeks (now : Duration) (b : TokenBucket ℚ) :
    b.access now (.seeks false) = b.tryTake now := by
  unfold access Pursuit.seek
  dsimp only
  rw [if_neg Bool.false_ne_true]
  cases ht : (b.tryTake now).1 with
  | true =>
    rw [← Prod.eta (b.tryTake now), ht]
    rfl
  | false =>
    rw [tryTake_of_not ht]
    dsimp only
    rw [if_neg Bool.false_ne_true]
    dsimp only
    rw [slice_snd, refill_refill]

theorem drawn_access (now : Duration) (b : TokenBucket ℚ) (deed : Access) :
    Drawn now b (b.access now deed) := by
  cases deed with
  | tries => exact drawn_tryTake now b
  | waits =>
    show Drawn now b (false, (b.wait now).2)
    rw [wait_snd]
    exact .seen
  | counts => exact .seen
  | seeks canceled =>
    cases canceled with
    | true => exact .untouched
    | false =>
      rw [access_seeks]
      exact drawn_tryTake now b

/-! ## The account of a run -/

theorem earned_nonneg (b : TokenBucket ℚ) (d : Duration) : 0 ≤ b.earned d := by
  rw [earned_eq]
  positivity

theorem earned_add (b : TokenBucket ℚ) (d d' : Duration) :
    b.earned (d + d') = b.earned d + b.earned d' := by
  rw [earned_eq, earned_eq, earned_eq]
  push_cast
  ring

namespace Run

variable {r : Run} {deed : Access} {since : Duration}

/-- No token is lost or made: those that were taken since a moment and those that are left
are no more than a full bucket and what is earned since. -/
structure Balanced (r : Run) : Prop where
  capacity : r.bucket.capacity = r.room
  nonneg : 0 ≤ r.bucket.tokens
  le_room : r.bucket.tokens ≤ r.room
  seen : r.bucket.refilledAt ≤ r.clock
  past : ∀ t ∈ r.takings, t ≤ r.bucket.refilledAt
  taken_add_tokens_le : ∀ since, (r.takenSince since : ℚ) + r.bucket.tokens ≤
    r.room + r.bucket.earned (r.bucket.refilledAt - since)

namespace Balanced

theorem start (rate : Nat) (now : Duration) : Balanced (start rate now) where
  capacity := rfl
  nonneg := Nat.cast_nonneg (max 1 rate)
  le_room := le_rfl
  seen := Nat.le_refl _
  past := fun _ ht => absurd ht List.not_mem_nil
  taken_add_tokens_le := fun since => by
    have hearned := (Run.start rate now).bucket.earned_nonneg (now - since)
    show ((0 : ℕ) : ℚ) + (max 1 rate : ℕ) ≤ (max 1 rate : ℕ) + (Run.start rate now).bucket.earned _
    rw [Nat.cast_zero, zero_add]
    exact le_add_of_nonneg_right hearned

theorem takenSince_eq_zero (h : Balanced r) (hlate : r.bucket.refilledAt < since) :
    r.takenSince since = 0 := by
  unfold takenSince
  rw [List.countP_eq_zero]
  intro t ht
  simpa using Nat.lt_of_le_of_lt (h.past t ht) hlate

theorem refill_le_room (h : Balanced r) (now : Duration) :
    (r.bucket.refill now).tokens ≤ r.room := by
  rw [refill_tokens, h.capacity]
  exact min_le_right _ _

theorem isProper (h : Balanced r) : r.bucket.IsProper where
  capacity := h.capacity.symm ▸ Nat.le_max_left 1 r.rate
  tokens := h.nonneg

/-- A look at the bucket keeps the account, whatever is lost because the bucket is full. -/
theorem refill (h : Balanced r) (hnow : r.clock ≤ now) (since : Duration) :
    (r.takenSince since : ℚ) + (r.bucket.refill now).tokens ≤
      r.room + r.bucket.earned (now - since) := by
  by_cases hsince : since ≤ r.bucket.refilledAt
  · have hcredit : (r.bucket.refill now).tokens ≤
        r.bucket.tokens + r.bucket.earned (now - r.bucket.refilledAt) := by
      rw [refill_tokens]
      exact min_le_left _ _
    rw [← Nat.sub_add_sub_cancel (h.seen.trans hnow) hsince, earned_add]
    linarith [h.taken_add_tokens_le since]
  · rw [h.takenSince_eq_zero (Nat.lt_of_not_le hsince), Nat.cast_zero, zero_add]
    exact (h.refill_le_room now).trans
      (le_add_of_nonneg_right (r.bucket.earned_nonneg (now - since)))

theorem next (h : Balanced r) (hnow : r.clock ≤ now) (deed : Access) :
    Balanced (r.next now deed) := by
  have hdrawn := drawn_access now r.bucket deed
  have hbucket : (r.next now deed).bucket = (r.bucket.access now deed).2 := rfl
  have htakings : (r.next now deed).takings =
      (if (r.bucket.access now deed).1 then [now] else []) ++ r.takings := rfl
  have hpast : ∀ t ∈ r.takings, t ≤ now := fun t ht => ((h.past t ht).trans h.seen).trans hnow
  generalize r.bucket.access now deed = x at hdrawn hbucket htakings
  cases hdrawn with
  | untouched =>
    have hsame : ∀ since, (r.next now deed).takenSince since = r.takenSince since :=
      fun since => congrArg (List.countP (since ≤ ·)) htakings
    refine ⟨?_, ?_, ?_, ?_, ?_, fun since => ?_⟩
    · exact hbucket ▸ h.capacity
    · exact hbucket ▸ h.nonneg
    · exact hbucket ▸ h.le_room
    · exact hbucket ▸ h.seen.trans hnow
    · rw [hbucket, htakings]
      exact h.past
    · rw [hsame, hbucket]
      exact h.taken_add_tokens_le since
  | seen =>
    have hsame : ∀ since, (r.next now deed).takenSince since = r.takenSince since :=
      fun since => congrArg (List.countP (since ≤ ·)) htakings
    refine ⟨?_, ?_, ?_, ?_, ?_, fun since => ?_⟩
    · exact hbucket ▸ h.capacity
    · exact hbucket ▸ (h.isProper.refill now).tokens
    · exact hbucket ▸ h.refill_le_room now
    · exact hbucket ▸ Nat.le_refl now
    · rw [hbucket, htakings]
      exact hpast
    · rw [hsame, hbucket]
      exact h.refill hnow since
  | taken hone =>
    have hcount : ∀ since, (r.next now deed).takenSince since ≤ r.takenSince since + 1 := by
      intro since
      unfold takenSince
      rw [htakings, if_pos rfl, List.singleton_append, List.countP_cons]
      split <;> omega
    refine ⟨?_, ?_, ?_, ?_, ?_, fun since => ?_⟩
    · exact hbucket ▸ h.capacity
    · exact hbucket ▸ sub_nonneg.mpr hone
    · exact hbucket ▸ (sub_le_self _ zero_le_one).trans (h.refill_le_room now)
    · exact hbucket ▸ Nat.le_refl now
    · rw [hbucket, htakings]
      intro t ht
      rcases List.mem_cons.mp ht with rfl | ht
      · exact Nat.le_refl _
      · exact hpast t ht
    · have hone : ((r.next now deed).takenSince since : ℚ) ≤ r.takenSince since + 1 := by
        exact_mod_cast hcount since
      have hrefill := h.refill hnow since
      rw [hbucket]
      show _ + ((r.bucket.refill now).tokens - 1) ≤ (r.room : ℚ) + r.bucket.earned (now - since)
      linarith

end Balanced

theorem balanced {r : Run} (h : r.IsTimely) : r.Balanced := by
  induction r with
  | start rate now => exact .start rate now
  | next r now deed ih => exact (ih h.1).next h.2 deed

/-! ## Windows of time -/

theorem takenIn_le_takenSince (r : Run) (since length : Duration) :
    r.takenIn since length ≤ r.takenSince since := by
  unfold takenIn takenSince
  refine List.countP_mono_left fun t _ ht => ?_
  simp only [decide_eq_true_eq] at ht ⊢
  exact ht.1

/-- An access after a window leaves what was taken in it. -/
theorem takenIn_next_of_late {length : Duration} (hlate : since + length < now) :
    (r.next now deed).takenIn since length = r.takenIn since length := by
  have hout : ¬ (since ≤ now ∧ now ≤ since + length) := fun h => Nat.not_le_of_lt hlate h.2
  unfold takenIn
  rw [show (r.next now deed).takings =
    (if (r.bucket.access now deed).1 then [now] else []) ++ r.takings from rfl]
  split
  · rw [List.singleton_append, List.countP_cons_of_neg (by simpa using hout)]
  · rfl

/-- In a window no more tokens are taken than a full bucket holds and the window earns. -/
theorem takenIn_le {r : Run} (h : r.IsTimely) (since length : Duration) :
    (r.takenIn since length : ℚ) ≤ r.room + r.bucket.earned length := by
  induction r with
  | start rate now =>
    show ((0 : ℕ) : ℚ) ≤ _
    rw [Nat.cast_zero]
    exact add_nonneg (Nat.cast_nonneg _) (earned_nonneg _ _)
  | next r now deed ih =>
    have hbalanced := Run.balanced h
    by_cases hlate : since + length < now
    · have hrate : (r.next now deed).bucket.capacity = r.bucket.capacity :=
        hbalanced.capacity.trans (Run.balanced h.1).capacity.symm
      rw [takenIn_next_of_late hlate, earned_eq, hrate, ← earned_eq]
      exact ih h.1
    · have hspan : (r.next now deed).bucket.refilledAt - since ≤ length :=
        Nat.sub_le_iff_le_add'.mpr (hbalanced.seen.trans (Nat.le_of_not_lt hlate))
      calc ((r.next now deed).takenIn since length : ℚ)
          ≤ (r.next now deed).takenSince since :=
            Nat.cast_le.mpr ((r.next now deed).takenIn_le_takenSince since length)
        _ ≤ (r.next now deed).takenSince since + (r.next now deed).bucket.tokens :=
            le_add_of_nonneg_right hbalanced.nonneg
        _ ≤ (r.next now deed).room + (r.next now deed).bucket.earned
              ((r.next now deed).bucket.refilledAt - since) :=
            hbalanced.taken_add_tokens_le since
        _ ≤ (r.next now deed).room + (r.next now deed).bucket.earned length :=
            add_le_add_right (earned_mono _ hspan) _

/-! ## A whole search for a token -/

/-- Rounds of one who seeks a token and is not canceled. -/
def seeking (rounds : List Duration) : List (Duration × Access) :=
  rounds.map fun t => (t, .seeks false)

theorem after_seeking_cons (r : Run) (t : Duration) (rounds : List Duration) :
    r.after (seeking (t :: rounds)) = (r.next t (.seeks false)).after (seeking rounds) := rfl

/-- What a search for a token does to a bucket is what its rounds do. -/
structure Sought (r : Run) (x : Bool × Nat × TokenBucket ℚ) (r' : Run) : Prop where
  timely : r'.IsTimely
  clock : r'.clock ≤ Duration.ofMillis x.2.1
  room : r'.room = r.room
  bucket : r'.bucket = x.2.2
  takings : r'.takings = (if x.1 then [Duration.ofMillis x.2.1] else []) ++ r.takings

theorem ofMillis_mono {m n : Nat} (h : m ≤ n) : Duration.ofMillis m ≤ Duration.ofMillis n :=
  Nat.mul_le_mul_right _ h

theorem sought_acquireFor (fuel now : Nat) (cancelAt : Option Nat) (r : Run) (h : r.IsTimely)
    (hclock : r.clock ≤ Duration.ofMillis now) (hcancel : ∀ c ∈ cancelAt, now ≤ c) :
    ∃ rounds, Sought r (r.bucket.acquireFor fuel now cancelAt) (r.after (seeking rounds)) := by
  induction fuel generalizing now r with
  | zero => exact ⟨[], h, hclock, rfl, rfl, rfl⟩
  | succ fuel ih =>
    unfold acquireFor
    cases ht : (r.bucket.tryTake (Duration.ofMillis now)).1 with
    | true =>
      rw [← Prod.eta (r.bucket.tryTake _), ht]
      refine ⟨[Duration.ofMillis now], ⟨h, hclock⟩, Nat.le_refl _, rfl, ?_, ?_⟩
      · exact congrArg Prod.snd (access_seeks _ r.bucket)
      · show (if (r.bucket.access _ _).1 then _ else _) ++ _ = _
        rw [access_seeks, ht]
        rfl
    | false =>
      -- the round took nothing, and the bucket was only looked at
      let round := r.next (Duration.ofMillis now) (.seeks false)
      have hround : round.IsTimely := ⟨h, hclock⟩
      have hbucket : round.bucket = r.bucket.refill (Duration.ofMillis now) := by
        show (r.bucket.access _ _).2 = _
        rw [access_seeks, tryTake_of_not ht]
      have htakings : round.takings = r.takings := by
        show (if (r.bucket.access _ _).1 then _ else _) ++ _ = _
        rw [access_seeks, ht]
        rfl
      have hgoesOn : ∀ later, now ≤ later → (∀ c ∈ cancelAt, later ≤ c) →
          ∃ rounds, Sought r (round.bucket.acquireFor fuel later cancelAt)
            (r.after (seeking rounds)) := by
        intro later hlater hcancel
        obtain ⟨rounds, hsought⟩ := ih later round hround (ofMillis_mono hlater) hcancel
        refine ⟨Duration.ofMillis now :: rounds, ?_⟩
        rw [after_seeking_cons]
        exact ⟨hsought.timely, hsought.clock, hsought.room, hsought.bucket,
          htakings ▸ hsought.takings⟩
      rw [tryTake_of_not ht]
      dsimp only
      rw [if_neg Bool.false_ne_true]
      generalize hslice :
        (r.bucket.refill (Duration.ofMillis now)).slice (Duration.ofMillis now) = x
      obtain ⟨ms, b'⟩ := x
      have hb' : b' = round.bucket := by
        have hsnd := congrArg Prod.snd hslice
        rw [slice_snd, refill_refill] at hsnd
        rw [hbucket, hsnd]
      subst hb'
      dsimp only
      cases cancelAt with
      | none => exact hgoesOn (now + ms) (Nat.le_add_right _ _) fun _ hc => nomatch hc
      | some c =>
        dsimp only
        split
        · exact ⟨[Duration.ofMillis now], hround, ofMillis_mono (hcancel c rfl), rfl, rfl, htakings⟩
        · rename_i hlate
          refine hgoesOn (now + ms) (Nat.le_add_right _ _) fun c' hc' => ?_
          cases hc'
          exact Nat.le_of_not_lt hlate

theorem sought_acquire (now : Nat) (cancelAt : Option Nat) (r : Run) (h : r.IsTimely)
    (hclock : r.clock ≤ Duration.ofMillis now) :
    ∃ rounds, Sought r (r.bucket.acquire now cancelAt) (r.after (seeking rounds)) := by
  unfold acquire
  split
  · exact ⟨[], h, hclock, rfl, rfl, rfl⟩
  · rename_i hfree
    refine sought_acquireFor acquireFuel now cancelAt r h hclock fun c hc => ?_
    cases hc
    simp only [Option.any_some, decide_eq_true_eq] at hfree
    exact Nat.le_of_not_le hfree

/-! ## All of it -/

/-- Whatever clients do to a bucket, it has no debts and is never more than full; in no window
of time more tokens are taken than a full bucket holds and the window earns.  A search for a
token that nobody comes in between of is a row of rounds, and takes one token if it succeeds
and none if it is canceled. -/
theorem conserves_tokens (r : Run) (h : r.IsTimely) :
    (0 ≤ r.bucket.tokens ∧ r.bucket.tokens ≤ (max 1 r.rate : ℕ)) ∧
    (∀ since length : Duration, (r.takenIn since length : ℚ) ≤
      (max 1 r.rate : ℕ) + (max 1 r.rate : ℕ) * TokenNumber.millis length / 60000) ∧
    ∀ now cancelAt, r.clock ≤ Duration.ofMillis now →
      ∃ rounds, Sought r (r.bucket.acquire now cancelAt) (r.after (seeking rounds)) := by
  have hbalanced := balanced h
  refine ⟨⟨hbalanced.nonneg, hbalanced.le_room⟩, fun since length => ?_,
    fun now cancelAt hclock => sought_acquire now cancelAt r h hclock⟩
  have hwindow := takenIn_le h since length
  rw [earned_eq, hbalanced.capacity, mul_comm] at hwindow
  exact hwindow

/-- Two clients draw on a bucket for one token in a minute. -/
def twoClients : Run :=
  (start 0 0).after
    [(0, .tries), (0, .seeks false), (Duration.ofSeconds 60, .counts),
      (Duration.ofSeconds 60, .seeks false), (Duration.ofSeconds 60, .tries)]

theorem conserves_tokens_twoClients :
    twoClients.IsTimely ∧ twoClients.takings = [Duration.ofSeconds 60, 0] ∧
      (twoClients.takenIn 0 (Duration.ofSeconds 60) : ℚ) ≤
        (max 1 twoClients.rate : ℕ) + (max 1 twoClients.rate : ℕ) *
          TokenNumber.millis (Duration.ofSeconds 60) / 60000 := by
  have htimely : twoClients.IsTimely := by decide
  have htakings : twoClients.takings = [Duration.ofSeconds 60, 0] := by decide +kernel
  exact ⟨htimely, htakings, (conserves_tokens twoClients htimely).2.1 0 (Duration.ofSeconds 60)⟩

end Run

end TokenBucket

end SmellWatch
