import Mathlib.Data.Rat.Floor
import Mathlib.Tactic.Linarith
import Mathlib.Tactic.Positivity
import SmellWatch.Proofs.Pacing.Retries
/-! A pursuit comes to an end.

Here tokens are counted in exact fractions.  Each sleep of one who waits for a token is as
long as it takes until there is one, or a second; and a second earns a sixtieth of a token at
least.  So a token is there after sixty sleeps, and the number of deeds in a run is bounded by
the number of its calls (`Run.IsTended.efforts_le`). -/

namespace SmellWatch

instance : TokenNumber ℚ where
  ofNat n := n
  atMost x y := x ≤ y
  millis d := d / 1000000
  ceil x := ⌈x⌉₊

namespace TokenBucket

variable {b : TokenBucket ℚ} {now later : Duration}

/-! ## What a bucket earns -/

/-- A bucket that holds one token at least, and has no debts. -/
structure IsProper (b : TokenBucket ℚ) : Prop where
  capacity : 1 ≤ b.capacity
  tokens : 0 ≤ b.tokens

/-- The tokens of a bucket at a time, if there were room for all. -/
def credit (b : TokenBucket ℚ) (now : Duration) : ℚ := b.tokens + b.earned (now - b.refilledAt)

theorem earned_eq (b : TokenBucket ℚ) (d : Duration) :
    b.earned d = (d : ℚ) / 1000000 * b.capacity / 60000 := rfl

theorem earned_mono (b : TokenBucket ℚ) {d d' : Duration} (h : d ≤ d') :
    b.earned d ≤ b.earned d' := by
  rw [earned_eq, earned_eq]
  have hcast : (d : ℚ) ≤ (d' : ℚ) := Nat.cast_le.mpr h
  gcongr

theorem credit_mono (b : TokenBucket ℚ) (h : now ≤ later) : b.credit now ≤ b.credit later :=
  add_le_add_right (b.earned_mono (Nat.sub_le_sub_right h _)) _

theorem tokens_le_credit (b : TokenBucket ℚ) (now : Duration) : b.tokens ≤ b.credit now := by
  have hearned : b.earned 0 ≤ b.earned (now - b.refilledAt) := b.earned_mono (Nat.zero_le _)
  rw [earned_eq b 0] at hearned
  unfold credit
  simp at hearned
  linarith

theorem refill_tokens (b : TokenBucket ℚ) (now : Duration) :
    (b.refill now).tokens = min (b.credit now) b.capacity := by
  show (if decide (b.credit now ≤ (b.capacity : ℚ)) = true then b.credit now
    else (b.capacity : ℚ)) = _
  rw [min_def]
  simp only [decide_eq_true_eq]

theorem credit_refill_self (b : TokenBucket ℚ) (now : Duration) :
    (b.refill now).credit now = (b.refill now).tokens := by
  unfold credit
  rw [show (b.refill now).refilledAt = now from rfl, Nat.sub_self, earned_eq]
  simp

theorem refill_refill_tokens (b : TokenBucket ℚ) (now : Duration) :
    ((b.refill now).refill now).tokens = (b.refill now).tokens := by
  rw [refill_tokens (b.refill now), credit_refill_self, refill_tokens]
  exact min_eq_left (min_le_right _ _)

theorem tryTake_eq (b : TokenBucket ℚ) (now : Duration) :
    b.tryTake now =
      if 1 ≤ (b.refill now).tokens then
        (true, { b.refill now with tokens := (b.refill now).tokens - 1 })
      else (false, b.refill now) := by
  unfold tryTake
  show (if decide (((1 : ℕ) : ℚ) ≤ (b.refill now).tokens) = true then _ else _) = _
  simp only [Nat.cast_one, decide_eq_true_eq]
  split <;> rfl

theorem taken_iff_credit (hcapacity : 1 ≤ b.capacity) (now : Duration) :
    (b.tryTake now).1 = true ↔ 1 ≤ b.credit now := by
  have hroom : (1 : ℚ) ≤ b.capacity := Nat.one_le_cast.mpr hcapacity
  have hone : 1 ≤ (b.refill now).tokens ↔ 1 ≤ b.credit now := by
    rw [refill_tokens, le_min_iff]
    exact and_iff_left hroom
  rw [tryTake_eq, ← hone]
  split
  · exact iff_of_true rfl ‹_›
  · exact iff_of_false Bool.false_ne_true ‹_›

theorem lt_one_of_none (h : b.IsProper) (hnone : (b.tryTake now).1 = false) :
    b.credit now < 1 ∧ (b.refill now).tokens = b.credit now := by
  have hcapacity : (1 : ℚ) ≤ b.capacity := Nat.one_le_cast.mpr h.capacity
  have hlt : b.credit now < 1 := by
    rwa [← Bool.not_eq_true, taken_iff_credit h.capacity, not_le] at hnone
  exact ⟨hlt, (b.refill_tokens now).trans (min_eq_left (hlt.le.trans hcapacity))⟩

theorem IsProper.taken (h : b.IsProper) (htaken : (b.tryTake now).1 = true) :
    (b.tryTake now).2.IsProper := by
  refine ⟨(b.tryTake_capacity now).symm ▸ h.capacity, ?_⟩
  rw [tryTake_eq] at htaken ⊢
  split at htaken
  · rename_i hmany
    rw [if_pos hmany]
    exact sub_nonneg.mpr hmany
  · cases htaken

theorem IsProper.refill (h : b.IsProper) (now : Duration) : (b.refill now).IsProper := by
  refine ⟨h.capacity, ?_⟩
  rw [refill_tokens]
  exact le_min (h.tokens.trans (b.tokens_le_credit now)) (Nat.cast_nonneg _)

/-! ## What a sleep earns -/

/-- The wait, were it not that a token may be there. -/
theorem wait_fst (hcapacity : 1 ≤ b.capacity) (now : Duration) :
    (b.wait now).1 = max 0 ((1 - b.credit now) * 60000 / b.capacity) := by
  have hroom : (1 : ℚ) ≤ b.capacity := Nat.one_le_cast.mpr hcapacity
  have hpos : (0 : ℚ) < b.capacity := by linarith
  unfold wait
  show (if decide (((1 : ℕ) : ℚ) ≤ (b.refill now).tokens) = true then (((0 : ℕ) : ℚ), b.refill now)
    else ((((1 : ℕ) : ℚ) - (b.refill now).tokens) * ((60000 : ℕ) : ℚ) / (b.capacity : ℚ), _)).1 = _
  rw [refill_tokens]
  push_cast
  by_cases hone : 1 ≤ b.credit now
  · rw [if_pos (decide_eq_true (le_min hone hroom)), max_eq_left]
    exact div_nonpos_of_nonpos_of_nonneg (by linarith) hpos.le
  · have hfew : b.credit now < 1 := not_le.mp hone
    rw [min_eq_left (hfew.le.trans hroom), if_neg (by simpa using hfew), max_eq_right]
    exact div_nonneg (by linarith) hpos.le

theorem wait_of_none (h : b.IsProper) (hnone : (b.tryTake now).1 = false) :
    ((b.refill now).wait now).1 = (1 - b.credit now) * 60000 / b.capacity := by
  obtain ⟨hlt, htokens⟩ := lt_one_of_none h hnone
  rw [wait_fst (h.refill now).capacity, credit_refill_self, htokens]
  exact max_eq_right (div_nonneg (by linarith) (Nat.cast_nonneg _))

theorem earned_ofMillis (b : TokenBucket ℚ) (n : Nat) :
    b.earned (Duration.ofMillis n) = n * b.capacity / 60000 := by
  rw [earned_eq]
  unfold Duration.ofMillis Duration.nanosPerMilli
  push_cast
  ring

/-- A sleep of one who waits for a token is as long as it takes, or a second. -/
theorem slice_earns (h : b.IsProper) (hnone : (b.tryTake now).1 = false) :
    min 1 (b.credit now + 1 / 60) ≤
      b.credit now + b.earned (Duration.ofMillis ((b.refill now).slice now).1) := by
  have hcapacity : (1 : ℚ) ≤ b.capacity := Nat.one_le_cast.mpr h.capacity
  have hslice : ((b.refill now).slice now).1 =
      min (max 1 ⌈(1 - b.credit now) * 60000 / b.capacity⌉₊) longestSlice := by
    rw [← wait_of_none h hnone]
    rfl
  rw [hslice, earned_ofMillis]
  rcases min_choice (max 1 ⌈(1 - b.credit now) * 60000 / b.capacity⌉₊) longestSlice with
    hwhole | hsecond
  · rw [hwhole]
    refine min_le_of_left_le ?_
    have hlong : (1 - b.credit now) * 60000 / b.capacity ≤
        (max 1 ⌈(1 - b.credit now) * 60000 / b.capacity⌉₊ : ℕ) :=
      (Nat.le_ceil _).trans (Nat.cast_le.mpr (le_max_right _ _))
    rw [div_le_iff₀ (by linarith)] at hlong
    linarith
  · rw [hsecond]
    refine min_le_of_right_le ?_
    unfold longestSlice
    push_cast
    linarith

/-- One who sleeps between two tries has a sixtieth of a token more afterwards, or a whole
one. -/
theorem credit_of_slept (h : b.IsProper) (hnone : (b.tryTake now).1 = false) :
    min 1 (b.credit now + 1 / 60) ≤ ((b.refill now).refill now).credit
      (now + Duration.ofMillis ((b.refill now).slice now).1) := by
  refine (slice_earns h hnone).trans (le_of_eq ?_)
  unfold credit
  rw [refill_refill_tokens, (lt_one_of_none h hnone).2]
  rw [show ((b.refill now).refill now).refilledAt = now from rfl, Nat.add_sub_cancel_left]
  rfl

end TokenBucket

namespace Pursuit

variable {α β : Type} {now : Duration}

/-! ## Runs in which each deed matters -/

def Deed.isShared : Deed α β → Bool
  | .shared _ => true
  | _ => false

namespace Run

/-- How many deeds there were. -/
def efforts : Run α β → Nat
  | start _ _ => 0
  | next r _ _ => r.efforts + 1

/-- The pursuit has its bucket for itself, and takes note of each deed: it is woken when it is
time, and what is answered is its call. -/
def IsTended : Run ℚ β → Prop
  | start _ bucket => bucket.IsProper
  | next r now deed => r.IsTended ∧ r.state.Minds now deed ∧ deed.isShared = false

end Run

/-! ## Tries and sleeps -/

variable {s s' : State ℚ β} {deed : Deed ℚ β} {efforts : Nat}

theorem length_ended (now : Duration) (answer : Except RemoteError β) (calls : List (Call β)) :
    (ended now answer calls).length = calls.length := by
  cases calls <;> rfl

theorem isProper_turn (h : s.bucket.IsProper) (hturn : Turn now s deed s')
    (hshared : deed.isShared = false) : s'.bucket.IsProper := by
  cases hturn with
  | shared bucket => cases hshared
  | calls _ _ _ _ _ htaken => exact h.taken htaken
  | seeks => exact (h.refill now).refill now
  | _ => exact h

/-- The deeds so far, by what the pursuit does: each call takes sixty tries in vain at most,
one that succeeds, and an answer. -/
inductive Patience (efforts : Nat) (s : State ℚ β) : Prop
  | calls (hopen : s.result? = none) (hcalling : s.pursuit.phase = .calling)
      (hefforts : efforts + 1 ≤ 62 * s.calls.length + s.canceled.toNat)
  /-- Each try in vain has left a sixtieth of a token more for the next one. -/
  | waits (time : Duration) (tries : Nat) (hopen : s.result? = none)
      (hwakes : s.pursuit.wakesAt? = some time) (htries : tries ≤ 60)
      (hcredit : min 1 ((tries : ℚ) / 60) ≤ s.bucket.credit time)
      (hefforts : efforts ≤ 62 * s.calls.length + tries + s.canceled.toNat)
  | rests (hover : s.result? ≠ none)
      (hefforts : efforts ≤ 62 * (s.calls.length + 1) + s.canceled.toNat)

namespace Patience

theorem waiting (h : Patience efforts s) {time : Duration} (hopen : s.result? = none)
    (hwakes : s.pursuit.wakesAt? = some time) :
    ∃ tries : Nat, tries ≤ 60 ∧ min 1 ((tries : ℚ) / 60) ≤ s.bucket.credit time ∧
      efforts ≤ 62 * s.calls.length + tries + s.canceled.toNat := by
  cases h with
  | calls _ hcalling _ =>
    rw [wakesAt?_eq_none.mpr hcalling] at hwakes
    cases hwakes
  | waits time' tries _ hwakes' htries hcredit hefforts =>
    cases hwakes.symm.trans hwakes'
    exact ⟨tries, htries, hcredit, hefforts⟩
  | rests hover _ => exact absurd hopen hover

theorem calling (h : Patience efforts s) (hopen : s.result? = none)
    (hcalling : s.pursuit.phase = .calling) :
    efforts + 1 ≤ 62 * s.calls.length + s.canceled.toNat := by
  cases h with
  | calls _ _ hefforts => exact hefforts
  | waits _ _ _ hwakes _ _ _ =>
    rw [wakesAt?_eq_none.mpr hcalling] at hwakes
    cases hwakes
  | rests hover _ => exact absurd hopen hover

theorem turn (h : Patience efforts s) (hproper : s.bucket.IsProper) (hturn : Turn now s deed s')
    (hminds : s.Minds now deed) (hshared : deed.isShared = false) :
    Patience (efforts + 1) s' := by
  cases hturn with
  | still _ hnone => exact absurd hminds hnone
  | shared bucket => cases hshared
  | canceled hfree =>
    cases h with
    | calls hopen hcalling hefforts =>
      refine .calls hopen hcalling ?_
      rw [hfree] at hefforts
      simpa using hefforts
    | waits time tries hopen hwakes htries hcredit hefforts =>
      refine .waits time tries hopen hwakes htries hcredit ?_
      rw [hfree] at hefforts
      simpa using hefforts
    | rests hover hefforts =>
      refine .rests hover ?_
      rw [hfree] at hefforts
      simpa using hefforts
  | leaves time hopen hwakes hcanceled =>
    obtain ⟨tries, htries, -, hefforts⟩ := h.waiting hopen hwakes
    refine .rests (Option.some_ne_none _) ?_
    dsimp only
    omega
  | calls time hopen hwakes hfree hdue htaken =>
    obtain ⟨tries, htries, -, hefforts⟩ := h.waiting hopen hwakes
    refine .calls hopen rfl ?_
    dsimp only [List.length_cons]
    omega
  | seeks time next hopen hwakes hfree hdue hnone hnext =>
    obtain ⟨tries, htries, hcredit, hefforts⟩ := h.waiting hopen hwakes
    have hlt := (TokenBucket.lt_one_of_none hproper hnone).1
    have hgrown := hcredit.trans (s.bucket.credit_mono hdue)
    -- had there been sixty tries, there would be a token by now
    have hfew : (tries : ℚ) / 60 ≤ s.bucket.credit now ∧ (tries : ℚ) / 60 < 1 := by
      rcases min_le_iff.mp hgrown with hwhole | hpart
      · exact absurd hlt (not_lt.mpr hwhole)
      · exact ⟨hpart, hpart.trans_lt hlt⟩
    have htries' : tries < 60 := by
      have hcast : (tries : ℚ) < (60 : ℕ) := by
        have hfewer := hfew.2
        rw [div_lt_one (by norm_num)] at hfewer
        exact_mod_cast hfewer
      exact Nat.cast_lt.mp hcast
    refine .waits next (tries + 1) hopen rfl htries' ?_ ?_
    · rw [hnext]
      refine le_trans ?_ (TokenBucket.credit_of_slept hproper hnone)
      refine min_le_min_left 1 ?_
      push_cast
      linarith [hfew.1]
    · dsimp only
      omega
  | finishes answer p hopen hcalling hpolicy hfinal =>
    have hefforts := h.calling hopen hcalling
    refine .rests (Option.some_ne_none _) ?_
    dsimp only
    rw [length_ended]
    omega
  | stops e d p hopen hcalling hpolicy hcanceled hdelay =>
    have hefforts := h.calling hopen hcalling
    refine .rests (Option.some_ne_none _) ?_
    dsimp only
    rw [length_ended]
    omega
  | rests e d hopen hcalling hfree hdelay =>
    have hefforts := h.calling hopen hcalling
    refine .waits (now + d) 0 hopen rfl (Nat.zero_le _) ?_ ?_
    · refine min_le_of_right_le ?_
      rw [Nat.cast_zero, zero_div]
      exact hproper.tokens.trans (s.bucket.tokens_le_credit _)
    · dsimp only
      rw [length_ended]
      omega

end Patience

theorem Run.IsTended.patience {r : Run ℚ β} (h : r.IsTended) :
    r.state.bucket.IsProper ∧ Patience r.efforts r.state := by
  induction r with
  | start policy bucket =>
    refine ⟨h, .waits 0 0 rfl rfl (Nat.zero_le _) ?_ (Nat.zero_le _)⟩
    refine min_le_of_right_le ?_
    rw [Nat.cast_zero, zero_div]
    exact h.tokens.trans (bucket.tokens_le_credit 0)
  | next r now deed ih =>
    obtain ⟨hproper, hpatience⟩ := ih h.1
    exact ⟨isProper_turn hproper (r.turn now deed) h.2.2,
      hpatience.turn hproper (r.turn now deed) h.2.1 h.2.2⟩

/-- The number of deeds is bounded by the number of calls. -/
theorem Run.IsTended.efforts_le {r : Run ℚ β} (h : r.IsTended) :
    r.efforts ≤ 62 * (r.state.calls.length + 1) + 1 := by
  have hflag := Bool.toNat_le r.state.canceled
  cases h.patience.2 with
  | calls _ _ hefforts => omega
  | waits _ _ _ _ htries _ hefforts => omega
  | rests _ hefforts => omega

/-- As long as there is no result, the pursuit waits for a time, or for the end of a call. -/
theorem Run.IsTended.goesOn {r : Run ℚ β} (h : r.IsTended) (hopen : r.state.result? = none) :
    (∃ time, ∀ now, time ≤ now → (r.next now .woken).IsTended) ∨
      ∀ now answer, (r.next now (.answered answer)).IsTended := by
  cases hwakes : r.state.pursuit.wakesAt? with
  | none => exact .inr fun now answer => ⟨h, ⟨hopen, wakesAt?_eq_none.mp hwakes⟩, rfl⟩
  | some time => exact .inl ⟨time, fun now hdue => ⟨h, ⟨hopen, time, hwakes, .inr hdue⟩, rfl⟩⟩

end Pursuit

end SmellWatch
