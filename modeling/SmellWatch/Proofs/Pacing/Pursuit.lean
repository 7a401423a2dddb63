import SmellWatch.Pacing.Pursuit
/-! What a pursuit can do next.

A pursuit that does not call goes on in one of four ways (`resumes`), and one that calls in
one of four others (`hears`).  All that is proved of pursuits is proved from these. -/

namespace SmellWatch

namespace TokenBucket

variable {α : Type} [TokenNumber α]

/-- A bucket that was at most looked at since. -/
def IsSeenAs (b : TokenBucket α) (now : Duration) (b' : TokenBucket α) : Prop :=
  b' = b ∨ b' = (b.refill now).refill now

theorem tryTake_of_not {now : Duration} {b : TokenBucket α} (h : (b.tryTake now).1 = false) :
    b.tryTake now = (false, b.refill now) := by
  unfold tryTake at h ⊢
  dsimp only at h ⊢
  split at h
  · cases h
  · rename_i hnone
    rw [if_neg hnone]

theorem slice_snd (now : Duration) (b : TokenBucket α) : (b.slice now).2 = b.refill now := by
  unfold slice wait
  dsimp only
  split <;> rfl

theorem tryTake_capacity (now : Duration) (b : TokenBucket α) :
    (b.tryTake now).2.capacity = b.capacity := by
  unfold tryTake
  dsimp only
  split <;> rfl

end TokenBucket

namespace Pursuit

variable {α β : Type} [TokenNumber α] {now : Duration} {canceled : Bool} {b : TokenBucket α}
  {p : Pursuit}

/-- When a pursuit that does not call wants to be woken. -/
def wakesAt? (p : Pursuit) : Option Duration :=
  match p.phase with
  | .seeking time | .resting time => some time
  | .calling => none

theorem wakesAt?_eq_none : p.wakesAt? = none ↔ p.phase = .calling := by
  unfold wakesAt?
  cases p.phase <;> simp

/-- What a pursuit does that does not call, when it is woken. -/
inductive Resumes (now : Duration) (canceled : Bool) (b : TokenBucket α) (p : Pursuit)
    (time : Duration) : Next β × Pursuit × TokenBucket α → Prop
  | canceled (h : canceled = true) : Resumes now canceled b p time (.ends (.error .canceled), p, b)
  | early (h : canceled = false) (hearly : now < time) :
      Resumes now canceled b p time (.sleeps time, p, b)
  /-- It takes a token and calls. -/
  | calls (h : canceled = false) (hdue : time ≤ now) (htaken : (b.tryTake now).1 = true) :
      Resumes now canceled b p time (.calls, { p with phase := .calling }, (b.tryTake now).2)
  /-- There is no token yet. -/
  | seeks (h : canceled = false) (hdue : time ≤ now) (hnone : (b.tryTake now).1 = false)
      (next : Duration) (hnext : next = now + Duration.ofMillis ((b.refill now).slice now).1) :
      Resumes now canceled b p time
        (.sleeps next, { p with phase := .seeking next }, (b.refill now).refill now)

theorem resumes {time : Duration} (h : p.wakesAt? = some time) :
    Resumes now canceled b p time (p.resume now canceled b : Next β × _) := by
  have hresume : p.resume now canceled b = if canceled then (.ends (.error .canceled), p, b)
      else if time ≤ now then p.seek now canceled b else ((.sleeps time : Next β), p, b) := by
    unfold resume
    unfold wakesAt? at h
    cases hp : p.phase <;> rw [hp] at h <;> cases h <;> rfl
  rw [hresume]
  cases hc : canceled with
  | true => exact .canceled rfl
  | false =>
    rw [if_neg Bool.false_ne_true]
    by_cases hdue : time ≤ now
    · rw [if_pos hdue]
      unfold seek
      cases ht : (b.tryTake now).1 with
      | true =>
        simp only [Bool.false_eq_true, if_false, ht, if_true]
        exact .calls rfl hdue ht
      | false =>
        simp only [Bool.false_eq_true, if_false, TokenBucket.tryTake_of_not ht,
          TokenBucket.slice_snd]
        exact .seeks rfl hdue ht _ rfl
    · rw [if_neg hdue]
      exact .early rfl (Nat.lt_of_not_le hdue)

/-- What a pursuit does when its call ends. -/
inductive Hears (now : Duration) (canceled : Bool) (p : Pursuit) :
    Except RemoteError β → Next β × Pursuit → Prop
  | succeeds (x : β) : Hears now canceled p (.ok x) (.ends (.ok x), p)
  | givesUp (e : RemoteError) (hfinal : (p.policy.nextDelay e p.attempts).1 = none) :
      Hears now canceled p (.error e)
        (.ends (.error e), { p with attempts := (p.policy.nextDelay e p.attempts).2 })
  | canceled (e : RemoteError) (d : Duration) (h : canceled = true)
      (hdelay : (p.policy.nextDelay e p.attempts).1 = some d) :
      Hears now canceled p (.error e) (.ends (.error .canceled),
        { p with attempts := (p.policy.nextDelay e p.attempts).2 })
  | rests (e : RemoteError) (d : Duration) (h : canceled = false)
      (hdelay : (p.policy.nextDelay e p.attempts).1 = some d) :
      Hears now canceled p (.error e) (.sleeps (now + d),
        { p with attempts := (p.policy.nextDelay e p.attempts).2, phase := .resting (now + d) })

theorem hears (now : Duration) (canceled : Bool) (p : Pursuit) (answer : Except RemoteError β) :
    Hears now canceled p answer (p.answered now canceled answer) := by
  unfold answered
  cases answer with
  | ok x => exact .succeeds x
  | error e =>
    rcases hd : p.policy.nextDelay e p.attempts with ⟨_ | d, a⟩
    · have hfinal : (p.policy.nextDelay e p.attempts).1 = none := by rw [hd]
      have h : Hears now canceled p (.error e : Except RemoteError β) _ := .givesUp e hfinal
      rw [hd] at h
      simp only [hd]
      exact h
    · have hdelay : (p.policy.nextDelay e p.attempts).1 = some d := by rw [hd]
      simp only [hd]
      cases canceled with
      | true =>
        have h : Hears now true p (.error e : Except RemoteError β) _ := .canceled e d rfl hdelay
        rw [hd] at h
        exact h
      | false =>
        have h : Hears now false p (.error e : Except RemoteError β) _ := .rests e d rfl hdelay
        rw [hd] at h
        exact h

/-! ## What follows -/

theorem resume_calling (h : p.phase = .calling) :
    p.resume now canceled b = ((.calls : Next β), p, b) := by
  unfold resume
  rw [h]

/-- A pursuit that is woken ends only if it was canceled. -/
theorem resume_ends {result : Except RemoteError β}
    (h : (p.resume now canceled b).1 = .ends result) :
    canceled = true ∧ result = .error .canceled := by
  cases hw : p.wakesAt? with
  | none =>
    rw [resume_calling (wakesAt?_eq_none.mp hw)] at h
    cases h
  | some time =>
    have hnext : Resumes now canceled b p time (p.resume now canceled b : Next β × _) := resumes hw
    generalize p.resume now canceled b = x at h hnext
    cases hnext <;> cases h
    exact ⟨‹_›, rfl⟩

/-- A pursuit that is woken calls only if it was not canceled, and found a token. -/
theorem resume_calls (hphase : p.phase ≠ .calling)
    (h : (p.resume now canceled b : Next β × _).1 = .calls) :
    canceled = false ∧ (b.tryTake now).1 = true := by
  obtain ⟨time, hw⟩ := Option.ne_none_iff_exists'.mp (mt wakesAt?_eq_none.mp hphase)
  have hnext : Resumes now canceled b p time (p.resume now canceled b : Next β × _) := resumes hw
  generalize p.resume now canceled b = x at h hnext
  cases hnext <;> cases h
  exact ⟨‹_›, ‹_›⟩

theorem resume_keeps :
    (p.resume now canceled b : Next β × _).2.1.policy = p.policy ∧
      (p.resume now canceled b : Next β × _).2.2.capacity = b.capacity := by
  cases hw : p.wakesAt? with
  | none =>
    rw [resume_calling (wakesAt?_eq_none.mp hw)]
    exact ⟨rfl, rfl⟩
  | some time =>
    have hnext : Resumes now canceled b p time (p.resume now canceled b : Next β × _) := resumes hw
    generalize p.resume now canceled b = x at hnext
    cases hnext with
    | calls => exact ⟨rfl, b.tryTake_capacity now⟩
    | _ => exact ⟨rfl, rfl⟩

/-- A pursuit that is answered ends with the answer, or was canceled. -/
theorem answered_ends {answer result : Except RemoteError β}
    (h : (p.answered now canceled answer).1 = .ends result) :
    (canceled = true ∧ result = .error .canceled) ∨ result = answer := by
  have hnext := hears now canceled p answer
  generalize p.answered now canceled answer = x at h hnext
  cases hnext <;> cases h
  · exact .inr rfl
  · exact .inr rfl
  · exact .inl ⟨‹_›, rfl⟩

/-- A pursuit that is answered does not call at once again. -/
theorem answered_not_calls (answer : Except RemoteError β) :
    (p.answered now canceled answer).1 ≠ .calls := by
  have hnext := hears now canceled p answer
  generalize p.answered now canceled answer = x at hnext
  cases hnext <;> nofun

theorem answered_policy (answer : Except RemoteError β) :
    (p.answered now canceled answer).2.policy = p.policy := by
  have hnext := hears now canceled p answer
  generalize p.answered now canceled answer = x at hnext
  cases hnext <;> rfl

end Pursuit

end SmellWatch
