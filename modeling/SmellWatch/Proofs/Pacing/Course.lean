import SmellWatch.Pacing.Acquire
import SmellWatch.Proofs.Pacing.Patience
/-! A pursuit in a time of its own is a run.

`course` follows a pursuit with answers that are given beforehand, for so many steps.  The
steps suffice, and what it tells is told of a run (`run_of_course`).

`pursues_and_ends` puts together what is known of pursuits. -/

namespace SmellWatch

namespace Pursuit

variable {β : Type} {now time : Duration} {r : Run ℚ β} {past : List (Call β)} {next : Next β}

/-! ## What is done next, as the state tells it -/

/-- The state of a pursuit that was not canceled fits what it does next; a call that it makes
is added to those of the past. -/
inductive Fits (now : Duration) (past : List (Call β)) (s : State ℚ β) : Next β → Prop
  | sleeps (time : Duration) (hopen : s.result? = none) (hfree : s.canceled = false)
      (hwakes : s.pursuit.wakesAt? = some time) (hcalls : s.calls = past) :
      Fits now past s (.sleeps time)
  | calls (hopen : s.result? = none) (hfree : s.canceled = false)
      (hcalling : s.pursuit.phase = .calling) (hcalls : s.calls = { start := now } :: past) :
      Fits now past s .calls
  | ends (result : Except RemoteError β) (hover : s.result? = some result)
      (hcalls : s.calls = past) : Fits now past s (.ends result)

theorem Fits.length_le {s : State ℚ β} (h : Fits now past s next) :
    s.calls.length ≤ past.length + 1 := by
  cases h with
  | sleeps _ _ _ _ hcalls => exact hcalls ▸ Nat.le_succ _
  | calls _ _ _ hcalls => exact (congrArg List.length hcalls).le
  | ends _ _ hcalls => exact hcalls ▸ Nat.le_succ _

namespace Run

/-- A cancellation comes, or not. -/
def flagged (r : Run ℚ β) (now : Duration) (canceled : Bool) : Run ℚ β :=
  if canceled then r.next now .canceled else r

theorem flagged_state (hfree : r.state.canceled = false) (now : Duration) (canceled : Bool) :
    (r.flagged now canceled).state = { r.state with canceled } := by
  cases canceled with
  | true => rfl
  | false =>
    show r.state = { r.state with canceled := false }
    rw [← hfree]

theorem IsTended.flagged (h : r.IsTended) (hfree : r.state.canceled = false) (now : Duration)
    (canceled : Bool) : (r.flagged now canceled).IsTended := by
  cases canceled with
  | true => exact ⟨h, hfree, rfl⟩
  | false => exact h

theorem flagged_policy (r : Run ℚ β) (now : Duration) (canceled : Bool) :
    (r.flagged now canceled).policy = r.policy := by
  cases canceled <;> rfl

theorem le_flagged_efforts (r : Run ℚ β) (now : Duration) (canceled : Bool) :
    r.efforts ≤ (r.flagged now canceled).efforts := by
  cases canceled with
  | true => exact Nat.le_succ _
  | false => exact Nat.le_refl _

end Run

/-- A run goes on with one more deed that matters. -/
structure GoesOn (r r' : Run ℚ β) : Prop where
  policy : r'.policy = r.policy
  tended : r'.IsTended
  efforts : r.efforts + 1 ≤ r'.efforts

theorem goesOn_flagged (now : Duration) (deed : Deed ℚ β) (canceled : Bool) (h : r.IsTended)
    (hfree : r.state.canceled = false)
    (hminds : { r.state with canceled }.Minds now deed) (hshared : deed.isShared = false) :
    GoesOn r ((r.flagged now canceled).next now deed) := by
  refine ⟨r.flagged_policy now canceled, ⟨h.flagged hfree now canceled, ?_, hshared⟩,
    Nat.succ_le_succ (r.le_flagged_efforts now canceled)⟩
  rw [Run.flagged_state hfree]
  exact hminds

/-- A pursuit that sleeps is woken. -/
theorem fits_woken (h : r.IsTended) (hfits : Fits now past r.state (.sleeps time))
    (later : Duration) (canceled : Bool) (hdue : canceled = true ∨ time ≤ later)
    (x : Next β × Pursuit × TokenBucket ℚ)
    (hx : r.state.pursuit.resume later canceled r.state.bucket = x) :
    ∃ r', GoesOn r r' ∧ Fits later past r'.state x.1 ∧ r'.state.pursuit = x.2.1 ∧
      r'.state.bucket = x.2.2 := by
  cases hfits with
  | sleeps _ hopen hfree hwakes hcalls =>
    refine ⟨_, goesOn_flagged later .woken canceled h hfree ⟨hopen, time, hwakes, hdue⟩ rfl, ?_⟩
    have hstep : ((r.flagged later canceled).next later .woken).state =
        State.follow later x.1 { r.state with canceled, pursuit := x.2.1, bucket := x.2.2 } := by
      show (r.flagged later canceled).state.step later .woken = _
      have hphase : r.state.pursuit.phase ≠ .calling := by
        rw [ne_eq, ← wakesAt?_eq_none, hwakes]
        exact Option.some_ne_none time
      rw [Run.flagged_state hfree]
      unfold State.step
      dsimp only
      rw [if_neg (not_or.mpr ⟨by simp [hopen], hphase⟩), hx]
    have hnext : Resumes later canceled r.state.bucket r.state.pursuit time x :=
      hx ▸ resumes hwakes
    rw [hstep]
    cases hnext with
    | canceled hcanceled => exact ⟨.ends _ rfl hcalls, rfl, rfl⟩
    | early hfree' hearly => exact ⟨.sleeps time hopen hfree' hwakes hcalls, rfl, rfl⟩
    | calls hfree' _ _ =>
      exact ⟨.calls hopen hfree' rfl (congrArg (List.cons _) hcalls), rfl, rfl⟩
    | seeks hfree' _ _ next _ => exact ⟨.sleeps next hopen hfree' rfl hcalls, rfl, rfl⟩

/-- A call of a pursuit ends. -/
theorem fits_answered (h : r.IsTended) (hfits : Fits now past r.state .calls) (later : Duration)
    (canceled : Bool) (answer : Except RemoteError β) (x : Next β × Pursuit)
    (hx : r.state.pursuit.answered later canceled answer = x) :
    ∃ r', GoesOn r r' ∧
      Fits later (ended later answer ({ start := now } :: past)) r'.state x.1 ∧
      r'.state.pursuit = x.2 ∧ r'.state.bucket = r.state.bucket := by
  cases hfits with
  | calls hopen hfree hcalling hcalls =>
    refine ⟨_, goesOn_flagged later (.answered answer) canceled h hfree ⟨hopen, hcalling⟩ rfl,
      ?_⟩
    have hstep : ((r.flagged later canceled).next later (.answered answer)).state =
        State.follow later x.1
          { r.state with
            canceled
            pursuit := x.2
            calls := ended later answer r.state.calls } := by
      show (r.flagged later canceled).state.step later (.answered answer) = _
      rw [Run.flagged_state hfree]
      unfold State.step
      dsimp only
      rw [if_neg (not_or.mpr ⟨by simp [hopen], not_not_intro hcalling⟩), hx]
    have hnext : Hears later canceled r.state.pursuit answer x :=
      hx ▸ hears later canceled r.state.pursuit answer
    rw [hstep, ← hcalls]
    cases hnext with
    | succeeds x => exact ⟨.ends _ rfl rfl, rfl, rfl⟩
    | givesUp e hfinal => exact ⟨.ends _ rfl rfl, rfl, rfl⟩
    | canceled e d hcanceled hdelay => exact ⟨.ends _ rfl rfl, rfl, rfl⟩
    | rests e d hfree' hdelay => exact ⟨.sleeps _ hopen hfree' rfl rfl, rfl, rfl⟩

/-! ## The whole course -/

theorem le_ofMillis_ceilMillis (d : Duration) : d ≤ Duration.ofMillis d.ceilMillis := by
  have hround : ∀ n : Nat, n ≤ (n + 999999) / 1000000 * 1000000 := by omega
  exact hround d

/-- What is left of a course is told of a run that goes on, if there are steps enough. -/
theorem run_of_followFor (cancelAt : Option Nat) (latency : Nat) (exhausted : β) (total : Nat)
    (fuel now : Nat) (answers : List (Except RemoteError β)) (h : r.IsTended)
    (hfits : Fits (Duration.ofMillis now) past r.state next)
    (hcalls : past.length ≤ total + 1)
    (hanswers : (∀ result, next ≠ .ends result) → past.length + answers.length = total)
    (hfuel : 202 * (total + 2) ≤ r.efforts + fuel) :
    ∃ r' : Run ℚ β, r'.policy = r.policy ∧ r'.IsTended ∧
      r'.state.result? = some (followFor cancelAt latency exhausted fuel now answers next
        r.state.pursuit r.state.bucket).result ∧
      r'.state.bucket = (followFor cancelAt latency exhausted fuel now answers next
        r.state.pursuit r.state.bucket).bucket ∧
      (r'.state.calls.map (·.start)).reverse = (past.map (·.start)).reverse ++
        (followFor cancelAt latency exhausted fuel now answers next
          r.state.pursuit r.state.bucket).calls.map Duration.ofMillis := by
  induction fuel generalizing r now answers past next with
  | zero =>
    have hefforts := h.efforts_le
    have hlength := hfits.length_le
    omega
  | succ fuel ih =>
    cases next with
    | ends result =>
      cases hfits with
      | ends _ hover hpast =>
        refine ⟨r, rfl, h, hover, rfl, ?_⟩
        rw [hpast]
        exact (List.append_nil _).symm
    | sleeps time =>
      have hcount := hanswers nofun
      have hdue : cancelAt.any (· < time.ceilMillis) = true ∨ time ≤ Duration.ofMillis
          (if cancelAt.any (· < time.ceilMillis) then max now (cancelAt.getD time.ceilMillis)
            else time.ceilMillis) := by
        cases cancelAt.any (· < time.ceilMillis) with
        | true => exact .inl rfl
        | false =>
          rw [if_neg Bool.false_ne_true]
          exact .inr (le_ofMillis_ceilMillis time)
      obtain ⟨r₁, hgoes, hfits₁, hp, hb⟩ := fits_woken h hfits _ _ hdue _ rfl
      have hleft : 202 * (total + 2) ≤ r₁.efforts + fuel := by
        have := hgoes.efforts
        omega
      obtain ⟨r', hpolicy, hrest⟩ := ih _ answers hgoes.tended hfits₁ hcalls (fun _ => hcount) hleft
      rw [hp, hb] at hrest
      exact ⟨r', hpolicy.trans hgoes.policy, hrest⟩
    | calls =>
      have hcount := hanswers nofun
      obtain ⟨r₁, hgoes, hfits₁, hp, hb⟩ := fits_answered h hfits
        (Duration.ofMillis (now + latency)) (cancelAt.any (· < now + latency))
        (answers.head?.getD (.ok exhausted)) _ rfl
      have hleft : 202 * (total + 2) ≤ r₁.efforts + fuel := by
        have := hgoes.efforts
        omega
      obtain ⟨r', hpolicy, htended, hresult, hbucket, hstarts⟩ := ih (now + latency) answers.tail
        hgoes.tended hfits₁ (by rw [length_ended, List.length_cons]; omega) (fun hgoing => by
          cases answers with
          | nil => exact absurd rfl (hgoing (.ok exhausted))
          | cons answer answers =>
            rw [length_ended, List.length_cons, List.tail_cons]
            rw [List.length_cons] at hcount
            omega) hleft
      rw [hp, hb] at hresult hbucket hstarts
      refine ⟨r', hpolicy.trans hgoes.policy, htended, hresult, hbucket, hstarts.trans ?_⟩
      rw [map_start_ended, List.map_cons, List.reverse_cons, List.append_assoc]
      rfl

/-- What a course tells is told of a run. -/
theorem run_of_course (policy : RetryPolicy) (cancelAt : Option Nat) (latency : Nat)
    (exhausted : β) (answers : List (Except RemoteError β)) (b : TokenBucket ℚ)
    (hb : b.IsProper) :
    ∃ r : Run ℚ β, r.policy = policy ∧ r.IsTended ∧
      r.state.result? = some (course policy cancelAt latency exhausted answers b).result ∧
      r.state.bucket = (course policy cancelAt latency exhausted answers b).bucket ∧
      (r.state.calls.map (·.start)).reverse =
        (course policy cancelAt latency exhausted answers b).calls.map Duration.ofMillis := by
  have hstart : (Run.start policy b : Run ℚ β).IsTended := hb
  have hfits : Fits 0 [] (Run.start policy b : Run ℚ β).state (.sleeps 0) :=
    .sleeps 0 rfl rfl rfl rfl
  obtain ⟨r₁, hgoes, hfits₁, hp, hbucket⟩ := fits_woken hstart hfits 0
    (cancelAt.any (· = 0)) (.inr (Nat.le_refl 0)) _ rfl
  obtain ⟨r, hpolicy, htended, hrest⟩ := run_of_followFor cancelAt latency exhausted answers.length
    ((answers.length + 2) * (TokenBucket.acquireFuel + 2)) 0 answers hgoes.tended
    (by rw [show Duration.ofMillis 0 = 0 from rfl]; exact hfits₁) (Nat.zero_le _)
    (fun _ => Nat.zero_add _) (by unfold TokenBucket.acquireFuel; omega)
  rw [hp, hbucket] at hrest
  exact ⟨r, hpolicy.trans hgoes.policy, htended, hrest⟩

/-! ## All of it -/

/-- A pursuit makes calls within the limits of its policy, each with a token taken for it and
no sooner than the delay allows, none once it is canceled, and ends as the last of them did,
unless it was canceled between two calls.  It does end, if it has its bucket for itself; and
`course` tells of such a run.  Failures are counted without a bound here; counts of 32 bits do the
same under limits of 32 bits, but for a limit of `2 ^ 32 - 1` retries (`Pursues.counted`). -/
theorem pursues_and_ends {α β : Type} [TokenNumber α] :
    (∀ r : Run α β, r.Pursues) ∧
    (∀ r : Run ℚ β, r.IsTended →
      r.efforts ≤ 62 * (max 1 r.policy.maxRateLimitAttempts + r.policy.maxServerRetries + 1) + 1 ∧
      (r.state.result? = none →
        (∃ time, ∀ now, time ≤ now → (r.next now .woken).IsTended) ∨
          ∀ now answer, (r.next now (.answered answer)).IsTended)) ∧
    ∀ policy cancelAt latency (exhausted : β) answers (b : TokenBucket ℚ), b.IsProper →
      ∃ r : Run ℚ β, r.policy = policy ∧ r.IsTended ∧
        r.state.result? = some (course policy cancelAt latency exhausted answers b).result ∧
        r.state.bucket = (course policy cancelAt latency exhausted answers b).bucket ∧
        (r.state.calls.map (·.start)).reverse =
          (course policy cancelAt latency exhausted answers b).calls.map Duration.ofMillis := by
  refine ⟨Run.pursues, fun r h => ⟨?_, h.goesOn⟩, run_of_course⟩
  have hefforts := h.efforts_le
  have hbounded := r.pursues.bounded
  omega

/-- A call takes too long, and the next one succeeds a second later. -/
theorem pursues_and_ends_secondTry :
    (TokenBucket.full 60 0 : TokenBucket ℚ).IsProper ∧
      ∃ r : Run ℚ Unit, r.IsTended ∧ r.state.result? = some (.ok ()) ∧
        (r.state.calls.map (·.start)).reverse = [0, Duration.ofMillis 1300] := by
  have hproper : (TokenBucket.full 60 0 : TokenBucket ℚ).IsProper :=
    ⟨by decide, Nat.cast_nonneg (max 1 60)⟩
  refine ⟨hproper, ?_⟩
  obtain ⟨r, -, htended, hresult, -, hstarts⟩ := (@pursues_and_ends ℚ Unit _).2.2
    RetryPolicy.default none 300 () [.error .timeout] (.full 60 0) hproper
  have hcourse : (course RetryPolicy.default none 300 () [.error .timeout]
      (.full 60 0 : TokenBucket ℚ)).result = .ok () ∧
      (course RetryPolicy.default none 300 () [.error .timeout]
        (.full 60 0 : TokenBucket ℚ)).calls = [0, 1300] :=
    ⟨by decide +kernel, by decide +kernel⟩
  rw [hcourse.1] at hresult
  rw [hcourse.2] at hstarts
  exact ⟨r, htended, hresult, hstarts⟩

end Pursuit

end SmellWatch
