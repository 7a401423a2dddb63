import SmellWatch.Proofs.Pacing.Backoff
import SmellWatch.Proofs.Pacing.Run
/-! The calls of a pursuit: how many there are, when they come, and which one is the last.

A call follows on another only if that one failed with an error worth another try, and not
before the delay after it has passed (`IsSpaced`).  This alone bounds their number, whatever
the order of the failures (`length_le_of_isSpaced`), and with it the counts of the failures: words
of 32 bits are enough for them (`nextDelayInWords?_of_calling`).  `Standing` is what holds of a
pursuit at every moment; it tells how calls, counts, result and phase belong together. -/

namespace SmellWatch

/-! ## Failures that are worth another try -/

namespace RetryPolicy

variable {policy : RetryPolicy} {e : RemoteError} {a : Attempts} {d : Duration}

/-- An error after which no call is made under any policy. -/
def IsFatal : RemoteError → Prop
  | .auth _ | .canceled | .malformed _ | .other _ => True
  | _ => False

theorem nextDelay_of_isFatal (policy : RetryPolicy) (a : Attempts) (h : IsFatal e) :
    (policy.nextDelay e a).1 = none := by
  cases e with
  | rateLimited hint => exact h.elim
  | server status detail => exact h.elim
  | timeout => exact h.elim
  | _ => rfl

/-- Another try is counted in one of the two families, and within its limit. -/
theorem nextDelay_counts (h : (policy.nextDelay e a).1 = some d)
    (hrateLimited : a.rateLimited + 1 ≤ max 1 policy.maxRateLimitAttempts)
    (hserver : a.server ≤ policy.maxServerRetries) :
    (policy.nextDelay e a).2.rateLimited + (policy.nextDelay e a).2.server =
        a.rateLimited + a.server + 1 ∧
      (policy.nextDelay e a).2.rateLimited + 1 ≤ max 1 policy.maxRateLimitAttempts ∧
      (policy.nextDelay e a).2.server ≤ policy.maxServerRetries := by
  have hserved : ∀ x, (if policy.maxServerRetries < a.server + 1 then
        ((none : Option Duration), { a with server := a.server + 1 })
      else (some (Duration.ofSeconds (a.server + 1)), { a with server := a.server + 1 })) = x →
      x.1 = some d → x.2.rateLimited + x.2.server = a.rateLimited + a.server + 1 ∧
        x.2.rateLimited + 1 ≤ max 1 policy.maxRateLimitAttempts ∧
        x.2.server ≤ policy.maxServerRetries := by
    rintro x rfl hx
    split at hx
    · cases hx
    · rename_i hfew
      rw [if_neg hfew]
      exact ⟨(Nat.add_assoc _ _ _).symm, hrateLimited, Nat.le_of_not_lt hfew⟩
  cases e with
  | rateLimited hint =>
    unfold nextDelay at h ⊢
    dsimp only at h ⊢
    split at h
    · cases h
    · rename_i hfew
      rw [if_neg hfew]
      dsimp only
      omega
  | server status detail => exact hserved _ rfl h
  | timeout => exact hserved _ rfl h
  | _ => cases h

end RetryPolicy

namespace Pursuit

variable {α β : Type} {policy : RetryPolicy} {calls older newer : List (Call β)} {c : Call β}
  {now time : Duration}

/-! ## Calls, the newest first -/

/-- The failures of some calls, by family. -/
def failures (policy : RetryPolicy) : List (Call β) → Attempts
  | [] => {}
  | c :: older =>
    match c.ending with
    | some (_, .error e) => (policy.nextDelay e (failures policy older)).2
    | _ => failures policy older

/-- A call may follow on these: there is none, or the newest one failed, and the delay after
it has passed. -/
def MayFollow (policy : RetryPolicy) (time : Duration) : List (Call β) → Prop
  | [] => True
  | c :: older => ∃ stop e d, c.ending = some (stop, .error e) ∧
      (policy.nextDelay e (failures policy older)).1 = some d ∧ stop + d ≤ time

/-- Each call starts once it may follow on those before. -/
def IsSpaced (policy : RetryPolicy) : List (Call β) → Prop
  | [] => True
  | c :: older => MayFollow policy c.start older ∧ IsSpaced policy older

theorem failures_of_failed {stop : Duration} {e : RemoteError}
    (h : c.ending = some (stop, .error e)) :
    failures policy (c :: older) = (policy.nextDelay e (failures policy older)).2 := by
  simp [failures, h]

theorem failures_of_running (h : c.ending = none) :
    failures policy (c :: older) = failures policy older := by
  simp [failures, h]

theorem MayFollow.mono {later : Duration} (h : MayFollow policy time calls) (hle : time ≤ later) :
    MayFollow policy later calls := by
  cases calls with
  | nil => trivial
  | cons c older =>
    obtain ⟨stop, e, d, hending, hdelay, hdue⟩ := h
    exact ⟨stop, e, d, hending, hdelay, Nat.le_trans hdue hle⟩

theorem mayFollow_of_append (h : IsSpaced policy (newer ++ c :: older)) (hne : newer ≠ []) :
    ∃ time, MayFollow policy time (c :: older) := by
  induction newer with
  | nil => exact absurd rfl hne
  | cons b newer ih =>
    cases newer with
    | nil => exact ⟨b.start, h.1⟩
    | cons x newer => exact ih h.2 (List.cons_ne_nil _ _)

/-- As long as another call may follow, all calls were failures within their limits. -/
theorem failures_of_mayFollow (h : IsSpaced policy calls) (hnext : MayFollow policy time calls) :
    (failures policy calls).rateLimited + (failures policy calls).server = calls.length ∧
      (failures policy calls).rateLimited + 1 ≤ max 1 policy.maxRateLimitAttempts ∧
      (failures policy calls).server ≤ policy.maxServerRetries := by
  induction calls generalizing time with
  | nil => exact ⟨rfl, Nat.le_max_left _ _, Nat.zero_le _⟩
  | cons c older ih =>
    obtain ⟨stop, e, d, hending, hdelay, -⟩ := hnext
    obtain ⟨hcount, hrateLimited, hserver⟩ := ih h.2 h.1
    rw [failures_of_failed hending, List.length_cons, ← hcount]
    exact RetryPolicy.nextDelay_counts hdelay hrateLimited hserver

theorem length_lt_of_mayFollow (h : IsSpaced policy calls)
    (hnext : MayFollow policy time calls) :
    calls.length < max 1 policy.maxRateLimitAttempts + policy.maxServerRetries := by
  obtain ⟨hcount, hrateLimited, hserver⟩ := failures_of_mayFollow h hnext
  omega

theorem length_le_of_isSpaced (h : IsSpaced policy calls) :
    calls.length ≤ max 1 policy.maxRateLimitAttempts + policy.maxServerRetries := by
  cases calls with
  | nil => exact Nat.zero_le _
  | cons c older => exact length_lt_of_mayFollow h.2 h.1

/-- A call that has ended in the last way is the newest. -/
theorem eq_nil_of_isFinal {stop : Duration} {answer : Except RemoteError β}
    (h : IsSpaced policy (newer ++ c :: older)) (hending : c.ending = some (stop, answer))
    (hfinal : policy.IsFinal answer (failures policy older)) : newer = [] := by
  cases newer with
  | nil => rfl
  | cons b newer =>
    obtain ⟨_, stop, e, d, hfailed, hdelay, -⟩ := mayFollow_of_append h (List.cons_ne_nil b newer)
    cases hending.symm.trans hfailed
    cases (hfinal e rfl).symm.trans hdelay

/-! ## What holds at every moment -/

variable {s s' : State α β} {deed : Deed α β}

/-- How a pursuit ended: as its last call did, or it was canceled while it sought a token or
rested. -/
inductive Over (policy : RetryPolicy) (s : State α β) (result : Except RemoteError β) : Prop
  | finished (c : Call β) (older : List (Call β)) (stop : Duration) (hcalls : s.calls = c :: older)
      (hending : c.ending = some (stop, result))
      (hfinal : policy.IsFinal result (failures policy older))
  | left (time : Duration) (hresult : result = .error .canceled) (hcanceled : s.canceled = true)
      (hnext : MayFollow policy time s.calls)

/-- Calls, counts, phase and result of a pursuit belong together. -/
structure Standing (policy : RetryPolicy) (s : State α β) : Prop where
  samePolicy : s.pursuit.policy = policy
  spaced : IsSpaced policy s.calls
  counted : s.result? = none → s.pursuit.attempts = failures policy s.calls
  calling : s.result? = none → s.pursuit.phase = .calling →
    ∃ c older, s.calls = c :: older ∧ c.ending = none
  waiting : s.result? = none → ∀ time, s.pursuit.wakesAt? = some time →
    MayFollow policy time s.calls
  outcome : ∀ result, s.result? = some result → Over policy s result

namespace Standing

/-- The newest call, while it is in progress. -/
theorem newest (h : Standing policy s) (hopen : s.result? = none)
    (hcalling : s.pursuit.phase = .calling) : ∃ c older, s.calls = c :: older ∧
      c.ending = none ∧ s.pursuit.attempts = failures policy older := by
  obtain ⟨c, older, hcalls, hending⟩ := h.calling hopen hcalling
  refine ⟨c, older, hcalls, hending, ?_⟩
  rw [h.counted hopen, hcalls, failures_of_running hending]

theorem turn [TokenNumber α] (h : Standing policy s) (hturn : Turn now s deed s') :
    Standing policy s' := by
  obtain ⟨hpolicy, hspaced, hcounted, hcalling, hwaiting, hover⟩ := id h
  cases hturn with
  | still _ _ => exact h
  | shared bucket =>
    refine ⟨hpolicy, hspaced, hcounted, hcalling, hwaiting, fun result hresult => ?_⟩
    cases hover result hresult with
    | finished c older stop hcalls hending hfinal =>
      exact .finished c older stop hcalls hending hfinal
    | left time hresult hcanceled hnext => exact .left time hresult hcanceled hnext
  | canceled hfree =>
    refine ⟨hpolicy, hspaced, hcounted, hcalling, hwaiting, fun result hresult => ?_⟩
    cases hover result hresult with
    | finished c older stop hcalls hending hfinal =>
      exact .finished c older stop hcalls hending hfinal
    | left time hresult hcanceled hnext => exact .left time hresult rfl hnext
  | leaves time hopen hwakes hcanceled =>
    refine ⟨hpolicy, hspaced, nofun, nofun, nofun, fun result hresult => ?_⟩
    cases hresult
    exact .left time rfl hcanceled (hwaiting hopen time hwakes)
  | calls time hopen hwakes hfree hdue htaken =>
    refine ⟨hpolicy, ⟨(hwaiting hopen time hwakes).mono hdue, hspaced⟩, hcounted,
      fun _ _ => ⟨_, _, rfl, rfl⟩, nofun, fun result hresult => ?_⟩
    cases hopen.symm.trans hresult
  | seeks time next hopen hwakes hfree hdue hnone hnext =>
    refine ⟨hpolicy, hspaced, hcounted, nofun, fun _ time' hwakes' => ?_,
      fun result hresult => ?_⟩
    · cases hwakes'
      refine (hwaiting hopen time hwakes).mono (Nat.le_trans hdue ?_)
      rw [hnext]
      exact Nat.le_add_right _ _
    · cases hopen.symm.trans hresult
  | finishes answer p hopen hphase hp hfinal =>
    obtain ⟨c, older, hcalls, -, hattempts⟩ := h.newest hopen hphase
    rw [hcalls] at hspaced
    rw [hpolicy, hattempts] at hfinal
    refine ⟨hp.trans hpolicy, by rw [hcalls]; exact hspaced, nofun, nofun, nofun,
      fun result hresult => ?_⟩
    cases hresult
    exact .finished _ older now (by rw [hcalls]; rfl) rfl hfinal
  | stops e d p hopen hphase hp hcanceled hdelay =>
    obtain ⟨c, older, hcalls, -, hattempts⟩ := h.newest hopen hphase
    rw [hcalls] at hspaced
    rw [hpolicy, hattempts] at hdelay
    refine ⟨hp.trans hpolicy, by rw [hcalls]; exact hspaced, nofun, nofun, nofun,
      fun result hresult => ?_⟩
    cases hresult
    refine .left (now + d) rfl hcanceled ?_
    rw [hcalls]
    exact ⟨now, e, d, rfl, hdelay, Nat.le_refl _⟩
  | rests e d hopen hphase hfree hdelay =>
    obtain ⟨c, older, hcalls, -, hattempts⟩ := h.newest hopen hphase
    rw [hcalls] at hspaced
    rw [hpolicy, hattempts] at hdelay
    refine ⟨hpolicy, by rw [hcalls]; exact hspaced, fun _ => ?_, nofun, fun _ time' hwakes' => ?_,
      fun result hresult => ?_⟩
    · rw [hcalls, hpolicy, hattempts]
      rfl
    · cases hwakes'
      rw [hcalls]
      exact ⟨now, e, d, rfl, hdelay, Nat.le_refl _⟩
    · cases hopen.symm.trans hresult

end Standing

theorem Run.standing [TokenNumber α] (r : Run α β) : Standing r.policy r.state := by
  induction r with
  | start policy bucket =>
    refine ⟨rfl, trivial, fun _ => rfl, nofun, fun _ _ _ => trivial, nofun⟩
  | next r now deed ih => exact ih.turn (r.turn now deed)

theorem map_start_ended (now : Duration) (answer : Except RemoteError β)
    (calls : List (Call β)) : (ended now answer calls).map (·.start) = calls.map (·.start) := by
  cases calls <;> rfl

/-! ## All of it -/

section

variable [TokenNumber α]

/-- What a deed has to do with calls and tokens: the pursuit takes a token and calls at once,
unless it was canceled; or it makes no call, and looks at the bucket at most. -/
inductive Pays (now : Duration) (s : State α β) (deed : Deed α β) (s' : State α β) : Prop
  | calls (hwoken : deed = .woken) (hfree : s.canceled = false)
      (hcalls : s'.calls = { start := now } :: s.calls)
      (htaken : s.bucket.tryTake now = (true, s'.bucket))
  | takesNone (hcalls : s'.calls.map (·.start) = s.calls.map (·.start))
      (hbucket : s.bucket.IsSeenAs now s'.bucket ∨ deed = .shared s'.bucket)

theorem Turn.pays (h : Turn now s deed s') : Pays now s deed s' := by
  cases h with
  | still _ _ => exact .takesNone rfl (.inl (.inl rfl))
  | shared bucket => exact .takesNone rfl (.inr rfl)
  | canceled _ => exact .takesNone rfl (.inl (.inl rfl))
  | leaves _ _ _ _ => exact .takesNone rfl (.inl (.inl rfl))
  | calls _ _ _ hfree _ htaken => exact .calls rfl hfree rfl (Prod.ext htaken rfl)
  | seeks _ _ _ _ _ _ _ _ => exact .takesNone rfl (.inl (.inr rfl))
  | finishes answer _ _ _ _ _ => exact .takesNone (map_start_ended _ _ _) (.inl (.inl rfl))
  | stops e _ _ _ _ _ _ _ => exact .takesNone (map_start_ended _ _ _) (.inl (.inl rfl))
  | rests e _ _ _ _ _ => exact .takesNone (map_start_ended _ _ _) (.inl (.inl rfl))

theorem Turn.canceled_of_canceled (h : Turn now s deed s') (hcanceled : s.canceled = true) :
    s'.canceled = true := by
  cases h <;> first | exact hcanceled | rfl

namespace Run

/-- Once a pursuit is canceled it makes no call any more. -/
theorem hushed (l : List (Duration × Deed α β)) (r : Run α β) (h : r.state.canceled = true) :
    (r.after l).state.calls.map (·.start) = r.state.calls.map (·.start) := by
  induction l generalizing r with
  | nil => rfl
  | cons x l ih =>
    have hturn := r.turn x.1 x.2
    refine (ih (r.next x.1 x.2) (hturn.canceled_of_canceled h)).trans ?_
    cases hturn.pays with
    | calls _ hfree _ _ => cases h.symm.trans hfree
    | takesNone hcalls _ => exact hcalls

/-- A call that ended in the last way is the newest, and what came of the pursuit. -/
theorem over_of_isFinal {r : Run α β} {stop : Duration} {answer : Except RemoteError β}
    (hcalls : r.state.calls = newer ++ c :: older) (hending : c.ending = some (stop, answer))
    (hfinal : r.policy.IsFinal answer (failures r.policy older)) :
    newer = [] ∧ r.state.result? = some answer := by
  obtain ⟨-, hspaced, -, hcalling, hwaiting, hover⟩ := r.standing
  have hfollows : ∀ time, ¬ MayFollow r.policy time (c :: older) := by
    rintro time ⟨stop, e, d, hfailed, hdelay, -⟩
    cases hending.symm.trans hfailed
    cases (hfinal e rfl).symm.trans hdelay
  have hnil := eq_nil_of_isFinal (hcalls ▸ hspaced) hending hfinal
  subst hnil
  rw [List.nil_append] at hcalls
  refine ⟨rfl, ?_⟩
  cases hresult : r.state.result? with
  | none =>
    cases hwakes : r.state.pursuit.wakesAt? with
    | none =>
      obtain ⟨b, l, hb, hrunning⟩ := hcalling hresult (wakesAt?_eq_none.mp hwakes)
      cases hcalls.symm.trans hb
      cases hending.symm.trans hrunning
    | some time => exact absurd (hcalls ▸ hwaiting hresult time hwakes) (hfollows time)
  | some result =>
    cases hover result hresult with
    | finished b l stop hb hended _ =>
      cases hcalls.symm.trans hb
      cases hending.symm.trans hended
      rfl
    | left time _ _ hnext => exact absurd (hcalls ▸ hnext) (hfollows time)

/-- A failure of the call that is in progress is counted in 32 bits, if the limits of the policy
are words of 32 bits and the one of retries is not the greatest of them. -/
theorem nextDelayInWords?_of_calling (r : Run α β)
    (hrateLimit : r.policy.maxRateLimitAttempts < 2 ^ 32)
    (hserver : r.policy.maxServerRetries + 1 < 2 ^ 32) (hopen : r.state.result? = none)
    (hcalling : r.state.pursuit.phase = .calling) (e : RemoteError) :
    r.policy.nextDelayInWords? e r.state.pursuit.attempts =
      some (r.policy.nextDelay e r.state.pursuit.attempts) := by
  obtain ⟨c, older, hcalls, -, hattempts⟩ := r.standing.newest hopen hcalling
  have hspaced := r.standing.spaced
  rw [hcalls] at hspaced
  obtain ⟨-, hpatience, hservice⟩ := failures_of_mayFollow hspaced.2 hspaced.1
  rw [hattempts]
  refine RetryPolicy.nextDelayInWords?_eq fun family _ => ?_
  cases family with
  | patience =>
    show (failures r.policy older).rateLimited + 1 < 2 ^ 32
    omega
  | service => exact Nat.lt_of_le_of_lt (Nat.succ_le_succ hservice) hserver

/-- How a pursuit goes about it.  Its counts have no width of their own; with limits that are
words of 32 bits they are such words (`counted`). -/
structure Pursues (r : Run α β) : Prop where
  bounded : r.state.calls.length ≤
    max 1 r.policy.maxRateLimitAttempts + r.policy.maxServerRetries
  spaced : IsSpaced r.policy r.state.calls
  paid : ∀ now deed, Pays now r.state deed (r.next now deed).state
  hushed : r.state.canceled = true → ∀ l,
    (r.after l).state.calls.map (·.start) = r.state.calls.map (·.start)
  outcome : ∀ result, r.state.result? = some result → Over r.policy r.state result
  last : ∀ newer c older stop answer, r.state.calls = newer ++ c :: older →
    c.ending = some (stop, answer) → r.policy.IsFinal answer (failures r.policy older) →
    newer = [] ∧ r.state.result? = some answer
  fatal : ∀ newer c older stop e, r.state.calls = newer ++ c :: older →
    c.ending = some (stop, .error e) → RetryPolicy.IsFatal e →
    newer = [] ∧ r.state.result? = some (.error e)
  counted : r.policy.maxRateLimitAttempts < 2 ^ 32 → r.policy.maxServerRetries + 1 < 2 ^ 32 →
    r.state.result? = none → r.state.pursuit.phase = .calling → ∀ e,
    r.policy.nextDelayInWords? e r.state.pursuit.attempts =
      some (r.policy.nextDelay e r.state.pursuit.attempts)

theorem pursues (r : Run α β) : r.Pursues where
  bounded := length_le_of_isSpaced r.standing.spaced
  spaced := r.standing.spaced
  paid := fun now deed => (r.turn now deed).pays
  hushed := fun h l => r.hushed l h
  outcome := r.standing.outcome
  last := fun _ _ _ _ _ hcalls hending hfinal => over_of_isFinal hcalls hending hfinal
  fatal := by
    intro newer c older stop e hcalls hending hfatal
    refine over_of_isFinal hcalls hending fun x hx => ?_
    cases hx
    exact r.policy.nextDelay_of_isFatal _ hfatal
  counted := r.nextDelayInWords?_of_calling

end Run

end

end Pursuit

end SmellWatch
