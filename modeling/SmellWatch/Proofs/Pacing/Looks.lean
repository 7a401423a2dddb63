import Mathlib.Algebra.Order.Group.MinMax
import SmellWatch.Proofs.Pacing.Conservation
import SmellWatch.Watch.State
/-! To look at a bucket does not disturb it.

Every look writes: it fills the bucket up with what was earned since the last one.  But what is
earned in two parts is what is earned at once, and what is lost because the bucket is full is
lost either way (`refill_refill_of_le`).  So from the time of a look on the bucket cannot be told
from the one that nobody looked at (`Alike`), and a `History` gives the same answers as the same
history without its looks.

What one who looks is told is exact: there is a token when the wait is over, and not before
(`taken_iff_wait_le`). -/

namespace SmellWatch

namespace TokenBucket

variable {b b' : TokenBucket ℚ} {since now later : Duration}

/-! ## What is asked of a bucket -/

inductive Use
  | tries
  /-- It is filled up at once. -/
  | resets
  /-- How long is it until there is a token? -/
  | waits
  /-- How many tokens are there? -/
  | counts
deriving DecidableEq

/-- Nothing is asked but what the bucket is like. -/
def Use.isLook : Use → Bool
  | .tries | .resets => false
  | .waits | .counts => true

inductive Use.Answer
  /-- Whether a token was taken. -/
  | took (taken : Bool)
  | done
  /-- Tokens, or milliseconds. -/
  | amount (x : ℚ)
deriving DecidableEq

def use (now : Duration) (b : TokenBucket ℚ) : Use → Use.Answer × TokenBucket ℚ
  | .tries => (.took (b.tryTake now).1, (b.tryTake now).2)
  | .resets => (.done, b.reset now)
  | .waits => (.amount (b.wait now).1, (b.wait now).2)
  | .counts => (.amount (b.available now).1, (b.available now).2)

inductive History
  | start (rate : Nat) (now : Duration)
  | next (past : History) (now : Duration) (what : Use)
deriving DecidableEq

namespace History

def bucket : History → TokenBucket ℚ
  | start rate now => full rate now
  | next r now what => (r.bucket.use now what).2

/-- The time at the end of a history. -/
def clock : History → Duration
  | start _ now => now
  | next _ now _ => now

/-- Time does not go back. -/
def IsTimely : History → Prop
  | start _ _ => True
  | next r now _ => r.IsTimely ∧ r.clock ≤ now

instance decidableIsTimely : (r : History) → Decidable r.IsTimely
  | start _ _ => isTrue trivial
  | next r now _ =>
    have := decidableIsTimely r
    inferInstanceAs (Decidable (r.IsTimely ∧ r.clock ≤ now))

/-- The same history, had nobody looked. -/
def unseen : History → History
  | start rate now => start rate now
  | next r now what => if what.isLook then r.unseen else r.unseen.next now what

/-- What those were told who did not just look, the latest first. -/
def answers : History → List Use.Answer
  | start _ _ => []
  | next r now what => (if what.isLook then [] else [(r.bucket.use now what).1]) ++ r.answers

/-- A history goes on. -/
def after (r : History) (l : List (Duration × Use)) : History :=
  l.foldl (fun r x => r.next x.1 x.2) r

end History

/-! ## What is earned in two parts -/

theorem credit_refill (b : TokenBucket ℚ) (now later : Duration) :
    (b.refill now).credit later = (b.refill now).tokens + b.earned (later - now) := rfl

theorem credit_of_le (hseen : b.refilledAt ≤ now) (h : now ≤ later) :
    b.credit later = b.credit now + b.earned (later - now) := by
  unfold credit
  rw [← Nat.sub_add_sub_cancel h hseen, earned_add]
  ring

theorem refill_refill_of_le (hseen : b.refilledAt ≤ now) (h : now ≤ later) :
    (b.refill now).refill later = b.refill later := by
  have hearned := b.earned_nonneg (later - now)
  have htokens : ((b.refill now).refill later).tokens = (b.refill later).tokens := by
    rw [refill_tokens, credit_refill, refill_tokens, refill_tokens, credit_of_le hseen h]
    show min (min (b.credit now) b.capacity + _) (b.capacity : ℚ) = _
    rcases le_total (b.credit now) b.capacity with hroom | hfull
    · rw [min_eq_left hroom]
    · rw [min_eq_right hfull, min_eq_right (le_add_of_nonneg_right hearned),
        min_eq_right (hfull.trans (le_add_of_nonneg_right hearned))]
  show TokenBucket.mk b.capacity ((b.refill now).refill later).tokens later =
    ⟨b.capacity, (b.refill later).tokens, later⟩
  rw [htokens]

/-! ## Buckets that cannot be told apart -/

/-- From a time on, it does not matter which of two buckets one has. -/
def Alike (since : Duration) (b b' : TokenBucket ℚ) : Prop :=
  ∀ now, since ≤ now → b.refill now = b'.refill now

theorem Alike.refill (h : Alike since b b') (hseen : b.refilledAt ≤ now) (hnow : since ≤ now) :
    Alike now (b.refill now) b' := fun later hlater =>
  (refill_refill_of_le hseen hlater).trans (h later (hnow.trans hlater))

theorem Alike.use (h : Alike since b b') (hnow : since ≤ now) (what : Use) :
    b.use now what = b'.use now what := by
  have hrefill := h now hnow
  have hcapacity : b.capacity = b'.capacity := by
    show (b.refill now).capacity = (b'.refill now).capacity
    rw [hrefill]
  cases what with
  | tries =>
    show (Use.Answer.took (b.tryTake now).1, (b.tryTake now).2) = (_, _)
    rw [tryTake_eq, tryTake_eq, hrefill]
  | resets =>
    show (Use.Answer.done, TokenBucket.mk b.capacity _ now) = (_, ⟨b'.capacity, _, now⟩)
    rw [hcapacity]
  | waits =>
    show (Use.Answer.amount (b.wait now).1, (b.wait now).2) = (_, _)
    unfold wait
    rw [hrefill]
  | counts =>
    show (Use.Answer.amount (b.refill now).tokens, b.refill now) =
      (.amount (b'.refill now).tokens, b'.refill now)
    rw [hrefill]

theorem use_of_look {what : Use} (h : what.isLook = true) (now : Duration) (b : TokenBucket ℚ) :
    (b.use now what).2 = b.refill now := by
  cases what with
  | tries | resets => cases h
  | waits => exact wait_snd now b
  | counts => rfl

theorem use_refilledAt (now : Duration) (b : TokenBucket ℚ) (what : Use) :
    (b.use now what).2.refilledAt = now := by
  cases what with
  | tries =>
    show (b.tryTake now).2.refilledAt = now
    rw [tryTake_eq]
    split <;> rfl
  | resets => rfl
  | waits => exact congrArg TokenBucket.refilledAt (wait_snd now b)
  | counts => rfl

theorem use_capacity (now : Duration) (b : TokenBucket ℚ) (what : Use) :
    (b.use now what).2.capacity = b.capacity := by
  cases what with
  | tries => exact b.tryTake_capacity now
  | resets => rfl
  | waits =>
    show (b.wait now).2.capacity = b.capacity
    rw [wait_snd]
    rfl
  | counts => rfl

/-! ## What a wait means -/

theorem taken_iff_wait (hcapacity : 1 ≤ b.capacity) (now : Duration) :
    (b.tryTake now).1 = true ↔ (b.wait now).1 = 0 := by
  have hpos : (0 : ℚ) < b.capacity := by exact_mod_cast hcapacity
  rw [taken_iff_credit hcapacity, wait_fst hcapacity, max_eq_left_iff, div_le_iff₀ hpos]
  constructor <;> intro h <;> linarith

theorem millis_nonneg (d : Duration) : (0 : ℚ) ≤ TokenNumber.millis d := by
  show (0 : ℚ) ≤ ((d : ℕ) : ℚ) / 1000000
  positivity

/-- A wait gets shorter as time goes by. -/
theorem wait_of_le (hcapacity : 1 ≤ b.capacity) (hseen : b.refilledAt ≤ now) (h : now ≤ later) :
    (b.wait later).1 = max 0 ((b.wait now).1 - TokenNumber.millis (later - now)) := by
  have hpos : (0 : ℚ) < b.capacity := by exact_mod_cast hcapacity
  have hearned : b.earned (later - now) =
      (TokenNumber.millis (later - now) : ℚ) * b.capacity / 60000 := rfl
  have hmillis := millis_nonneg (later - now)
  have hsplit : (1 - b.credit later) * 60000 / b.capacity =
      (1 - b.credit now) * 60000 / b.capacity - TokenNumber.millis (later - now) := by
    rw [credit_of_le hseen h, hearned]
    field_simp
    ring
  rw [wait_fst hcapacity, wait_fst hcapacity, hsplit, ← max_sub_sub_right, zero_sub, ← max_assoc,
    max_eq_left (neg_nonpos.mpr hmillis)]

/-- There is a token when the wait is over, and not before. -/
theorem taken_iff_wait_le (hcapacity : 1 ≤ b.capacity) (hseen : b.refilledAt ≤ now)
    (h : now ≤ later) :
    (b.tryTake later).1 = true ↔ (b.wait now).1 ≤ TokenNumber.millis (later - now) := by
  rw [taken_iff_wait hcapacity, wait_of_le hcapacity hseen h, max_eq_left_iff, sub_nonpos]

/-! ## Histories -/

namespace History

variable {r r' : History} {what : Use}

theorem next_bucket_of_look (h : what.isLook = true) (r : History) (now : Duration) :
    (r.next now what).bucket = r.bucket.refill now := use_of_look h now r.bucket

theorem refilledAt (r : History) : r.bucket.refilledAt = r.clock := by
  cases r with
  | start rate now => rfl
  | next r now what => exact use_refilledAt now r.bucket what

theorem one_le_capacity (r : History) : 1 ≤ r.bucket.capacity := by
  induction r with
  | start rate now => exact Nat.le_max_left 1 rate
  | next r now what ih => exact (use_capacity now r.bucket what).symm ▸ ih

/-- One step of both histories: a look is left out of the second one. -/
theorem next_unseen (hanswers : r.answers = r.unseen.answers)
    (halike : Alike r.clock r.bucket r.unseen.bucket) (hnow : r.clock ≤ now) (what : Use) :
    (r.next now what).answers = (r.next now what).unseen.answers ∧
      Alike now (r.next now what).bucket (r.next now what).unseen.bucket := by
  cases hlook : what.isLook with
  | true =>
    have hunseen : (r.next now what).unseen = r.unseen := if_pos hlook
    have hsame : (r.next now what).answers = r.answers := by
      show (if what.isLook then [] else [_]) ++ r.answers = _
      rw [if_pos hlook, List.nil_append]
    rw [hunseen, hsame, next_bucket_of_look hlook]
    -- what the look wrote cannot be told from what the next one would have written
    exact ⟨hanswers, halike.refill (r.refilledAt.le.trans hnow) hnow⟩
  | false =>
    have hunseen : (r.next now what).unseen = r.unseen.next now what :=
      if_neg (by rw [hlook]; exact Bool.false_ne_true)
    have huse := halike.use hnow what
    rw [hunseen]
    constructor
    · show (if what.isLook then [] else [(r.bucket.use now what).1]) ++ r.answers =
        (if what.isLook then [] else [(r.unseen.bucket.use now what).1]) ++ r.unseen.answers
      rw [huse, hanswers]
    · intro later _
      show (r.bucket.use now what).2.refill later = (r.unseen.bucket.use now what).2.refill later
      rw [huse]

theorem alike_unseen (h : r.IsTimely) :
    r.answers = r.unseen.answers ∧ Alike r.clock r.bucket r.unseen.bucket := by
  induction r with
  | start rate now => exact ⟨rfl, fun _ _ => rfl⟩
  | next r now what ih =>
    obtain ⟨hanswers, halike⟩ := ih h.1
    exact next_unseen hanswers halike h.2 what

/-! ## As long as nobody takes a token -/

/-- A token was taken, or the bucket was filled up at once. -/
def Moves (r : History) (now : Duration) (what : Use) : Prop :=
  what = .resets ∨ (r.bucket.use now what).1 = .took true

/-- Nobody took a token or filled the bucket up while the history went on. -/
def IsQuiet (r : History) : List (Duration × Use) → Prop
  | [] => True
  | (now, what) :: l => ¬ r.Moves now what ∧ (r.next now what).IsQuiet l

theorem bucket_of_not_moves (h : ¬ r.Moves now what) :
    (r.next now what).bucket = r.bucket.refill now := by
  cases what with
  | tries =>
    have hnone : (r.bucket.tryTake now).1 = false := by
      cases ht : (r.bucket.tryTake now).1 with
      | false => rfl
      | true => exact absurd (.inr (congrArg Use.Answer.took ht)) h
    exact congrArg Prod.snd (tryTake_of_not hnone)
  | resets => exact absurd (.inl rfl) h
  | waits => exact next_bucket_of_look rfl r now
  | counts => rfl

theorem clock_le_after {l : List (Duration × Use)} (h : (r.after l).IsTimely) :
    r.IsTimely ∧ r.clock ≤ (r.after l).clock := by
  induction l generalizing r with
  | nil => exact ⟨h, Nat.le_refl _⟩
  | cons x l ih =>
    obtain ⟨htimely, hclock⟩ := ih h
    exact ⟨htimely.1, htimely.2.trans hclock⟩

theorem alike_after {l : List (Duration × Use)} (h : (r.after l).IsTimely) (hquiet : r.IsQuiet l) :
    Alike (r.after l).clock (r.after l).bucket r.bucket := by
  induction l generalizing r with
  | nil => exact fun _ _ => rfl
  | cons x l ih =>
    obtain ⟨htimely, hclock⟩ := clock_le_after (r := r.next x.1 x.2) h
    intro later hlater
    have hstep : (r.next x.1 x.2).bucket = r.bucket.refill x.1 := bucket_of_not_moves hquiet.1
    rw [show r.after (x :: l) = (r.next x.1 x.2).after l from rfl] at hlater ⊢
    rw [ih h hquiet.2 later hlater, hstep]
    exact refill_refill_of_le (r.refilledAt.le.trans htimely.2) (hclock.trans hlater)

/-! ## All of it -/

/-- Looks at a bucket leave no trace.  Two histories that differ in their looks only give the
same answers, and afterwards the same number of tokens.  The wait that one who looks is told is
exact: as long as nobody takes a token or fills the bucket up, every try before its end is in
vain, and every later one is not.  To look at the status of a watch is to count the tokens of
its bucket. -/
theorem looks_leave_no_trace (r : History) (h : r.IsTimely) :
    (∀ r' : History, r'.IsTimely → r'.unseen = r.unseen → r'.answers = r.answers ∧
      ∀ now, r.clock ≤ now → r'.clock ≤ now →
        (r'.bucket.available now).1 = (r.bucket.available now).1) ∧
    (∀ now, r.clock ≤ now → ∀ l, ((r.next now .waits).after l).IsTimely →
      (r.next now .waits).IsQuiet l → ∀ later, ((r.next now .waits).after l).clock ≤ later →
        ((((r.next now .waits).after l).bucket.tryTake later).1 = true ↔
          (r.bucket.wait now).1 ≤ TokenNumber.millis (later - now))) ∧
    ∀ (w : Watch) (b : TokenBucket Float) (now : Duration), w.buckets[w.bucket]? = some b →
      (w.status now).1.availableTokens = (b.available now).1 ∧
      (w.status now).2 = { w with buckets := w.buckets.set w.bucket (b.available now).2 } := by
  obtain ⟨hanswers, halike⟩ := alike_unseen h
  refine ⟨fun r' h' hsame => ?_, fun now hnow l htimely hquiet later hlater => ?_,
    fun w b now hbucket => ?_⟩
  · obtain ⟨hanswers', halike'⟩ := alike_unseen h'
    rw [hsame] at hanswers' halike'
    refine ⟨hanswers'.trans hanswers.symm, fun now hnow hnow' => ?_⟩
    show (r'.bucket.refill now).tokens = (r.bucket.refill now).tokens
    rw [halike now hnow, halike' now hnow']
  · obtain ⟨-, hclock⟩ := clock_le_after htimely
    have hrefill : ((r.next now .waits).after l).bucket.refill later = r.bucket.refill later := by
      rw [alike_after htimely hquiet later hlater, next_bucket_of_look rfl]
      exact refill_refill_of_le (r.refilledAt.le.trans hnow) (hclock.trans hlater)
    rw [← taken_iff_wait_le r.one_le_capacity (r.refilledAt.le.trans hnow) (hclock.trans hlater),
      tryTake_eq, tryTake_eq, hrefill]
  · unfold Watch.status Watch.drawOn
    rw [hbucket]
    exact ⟨rfl, rfl⟩

/-- A client takes the only token in a minute, tries again too early, and again in time. -/
def patient : History :=
  (start 1 0).after
    [(0, .tries), (Duration.ofSeconds 59, .tries), (Duration.ofSeconds 60, .tries)]

/-- The same, with somebody who looks in between. -/
def watched : History :=
  (start 1 0).after
    [(0, .tries), (Duration.ofSeconds 30, .counts), (Duration.ofSeconds 45, .waits),
      (Duration.ofSeconds 59, .tries), (Duration.ofSeconds 59, .counts),
      (Duration.ofSeconds 60, .tries)]

/-- The only token in a minute is taken. -/
def emptied : History := (start 1 0).next 0 .tries

theorem looks_leave_no_trace_watched :
    patient.IsTimely ∧ watched.IsTimely ∧ watched.unseen = patient.unseen ∧
      patient.answers = [.took true, .took false, .took true] ∧
      watched.answers = patient.answers ∧
      (((emptied.next 0 .waits).after [(Duration.ofSeconds 30, .counts)]).bucket.tryTake
        (Duration.ofSeconds 60)).1 = true := by
  have hpatient : patient.IsTimely := by decide
  have hwatched : watched.IsTimely := by decide
  have hunseen : watched.unseen = patient.unseen := by decide
  have hanswers : patient.answers = [.took true, .took false, .took true] := by decide +kernel
  have hwait : (emptied.bucket.wait 0).1 ≤
      TokenNumber.millis (Duration.ofSeconds 60 - 0) := by decide +kernel
  have hquiet : (emptied.next 0 .waits).IsQuiet [(Duration.ofSeconds 30, .counts)] := by
    refine ⟨?_, trivial⟩
    rintro (h | h) <;> cases h
  refine ⟨hpatient, hwatched, hunseen, hanswers,
    ((looks_leave_no_trace patient hpatient).1 watched hwatched hunseen).1, ?_⟩
  exact ((looks_leave_no_trace emptied (by decide)).2.1 0 (by decide)
    [(Duration.ofSeconds 30, .counts)] (by decide) hquiet (Duration.ofSeconds 60)
    (by decide)).mpr hwait

end History

end TokenBucket

end SmellWatch
