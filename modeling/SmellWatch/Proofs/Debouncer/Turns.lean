import SmellWatch.Proofs.Debouncer.Run
/-! How a debouncer and its timers stand, and what one deed does to that.

While a call waits, its timer is set and is the only one; when none waits no timer is set, also if
the debouncer was thrown away and has left a call behind (`Stands`).  So the timer of a call that
was replaced, flushed, canceled or thrown away finds that it was aborted, and the generation never
has to be asked.  `Turn` lists what one deed can do to this (`Stands.turn`). -/

namespace SmellWatch

namespace Debouncer

variable {α : Type}

namespace Run

variable {r : Run α} {now : Duration} {e : Deed α} {c : Call α} {s : Step α}

/-! ## While a call waits, and while none does -/

/-- A debouncer that keeps a call, with the timer of the call. -/
def waiting (delay : Duration) (c : Call α) (generation : UInt64) (number : Nat) :
    Workings (Call α) where
  debouncer := ⟨delay, some ⟨c, c.time + delay⟩, generation, some ⟨c.timer, generation⟩⟩
  timers := [(⟨c.timer, generation⟩, c.time + delay)]
  number := number

/-- A debouncer that keeps nothing. -/
def idle (delay : Duration) (generation : UInt64) (number : Nat) : Workings (Call α) where
  debouncer := { delay, generation }
  number := number

section

variable {delay : Duration} {generation : UInt64} {number : Nat}

theorem call_waiting (b : Call α) (moment : Nat) (now : Duration) (value : α) :
    (waiting delay b generation number).call now ⟨moment, now, value, number⟩ =
      waiting delay ⟨moment, now, value, number⟩ (generation + 1) (number + 1) := by
  simp [waiting, Workings.call, Workings.abort, Debouncer.call, disarm]

theorem call_idle (moment : Nat) (now : Duration) (value : α) :
    (idle delay generation number).call now ⟨moment, now, value, number⟩ =
      waiting delay ⟨moment, now, value, number⟩ (generation + 1) (number + 1) := by
  simp [waiting, idle, Workings.call, Workings.abort, Debouncer.call, disarm]

theorem flush_waiting (c : Call α) :
    (waiting delay c generation number).flush = (some c, idle delay (generation + 1) number) := by
  simp [waiting, idle, Workings.flush, Workings.abort, Debouncer.flush, disarm]

theorem flush_idle :
    (idle delay generation number : Workings (Call α)).flush =
      (none, idle delay (generation + 1) number) := rfl

theorem cancel_waiting (c : Call α) :
    (waiting delay c generation number).cancel.2 = idle delay (generation + 1) number := by
  simp [waiting, idle, Workings.cancel, Workings.abort, Debouncer.cancel, disarm]

theorem cancel_idle :
    (idle delay generation number : Workings (Call α)).cancel.2 =
      idle delay (generation + 1) number := rfl

/-- A debouncer that is thrown away has its timer aborted; the call stays, and nothing will take
it. -/
theorem drop_waiting (c : Call α) :
    (waiting delay c generation number).drop =
      ⟨(waiting delay c generation number).debouncer.drop, [], number, true⟩ := by
  simp [waiting, Workings.drop, Workings.abort, Debouncer.drop]

theorem drop_idle :
    (idle delay generation number : Workings (Call α)).drop =
      ⟨(idle delay generation number).debouncer, [], number, true⟩ := rfl

/-- The timer that is set knows the generation, so that it takes the call when it is time. -/
theorem wake_waiting (delay : Duration) (c : Call α) (generation : UInt64) (number : Nat)
    (now : Duration) (n : Nat) :
    (waiting delay c generation number).wake now n =
      if n = c.timer ∧ c.time + delay ≤ now then (some c, idle delay generation number)
      else (none, waiting delay c generation number) := by
  unfold Workings.wake waiting
  by_cases hn : c.timer = n
  · subst hn
    by_cases hdue : now < c.time + delay
    · simp [hdue, Nat.not_le.mpr hdue]
    · simp [hdue, Nat.not_lt.mp hdue, take, Workings.abort, idle]
  · simp [hn, Ne.symm hn]

theorem wake_idle (now : Duration) (n : Nat) :
    (idle delay generation number : Workings (Call α)).wake now n =
      (none, idle delay generation number) := rfl

end

/-- How a debouncer and its timers stand when a call waits, or none. -/
inductive Stands (delay : Duration) : Workings (Call α) → Option (Call α) → Prop
  | waits (c : Call α) (generation : UInt64) (number : Nat) :
      Stands delay (waiting delay c generation number) (some c)
  | idle (generation : UInt64) (number : Nat) :
      Stands delay (idle delay generation number) none
  /-- It was thrown away, and what it kept is left as it was. -/
  | gone (d : Debouncer (Call α)) (number : Nat) : Stands delay ⟨d, [], number, true⟩ none

/-- The timer of a call that waits is set. -/
theorem Stands.mem_timers (h : Stands r.delay r.workings (some c)) :
    ∃ t, (t, c.time + r.delay) ∈ r.workings.timers := by
  generalize r.workings = w at h
  cases h with
  | waits _ generation number => exact ⟨_, List.mem_singleton.mpr rfl⟩

/-- What is pending is the call that waits. -/
theorem Stands.pending_eq {x : Option (Call α)} (h : Stands r.delay r.workings x)
    {d : Debouncer (Call α)} (hd : r.debouncer? = some d) : d.pending.map (·.value) = x := by
  unfold debouncer? at hd
  generalize r.workings = w at h hd
  cases h with
  | waits c generation number =>
    cases hd
    rfl
  | idle generation number =>
    cases hd
    rfl
  | gone _ number => cases hd

theorem Stands.wake_eq {x : Option (Call α)} (h : Stands r.delay r.workings x)
    {d : Debouncer (Call α)} (hd : r.debouncer? = some d) (now : Duration) {t : Timer}
    (ht : ∀ u ∈ d.timer, u.number = t.number → u = t) :
    (r.workings.wake now t.number).1 = (d.ring now t).1 ∧
      (r.workings.wake now t.number).2.debouncer = (d.ring now t).2 := by
  unfold debouncer? at hd
  generalize r.workings = w at h hd ⊢
  cases h with
  | waits c generation number =>
    cases hd
    rw [wake_waiting, ring_eq rfl]
    by_cases hring : t.number = c.timer ∧ c.time + r.delay ≤ now
    · obtain rfl : ⟨c.timer, generation⟩ = t := ht _ rfl hring.1.symm
      rw [if_pos hring, if_pos ⟨rfl, rfl, hring.2⟩]
      exact ⟨rfl, rfl⟩
    · rw [if_neg hring, if_neg]
      · exact ⟨rfl, rfl⟩
      · rintro ⟨heq, -, hdue⟩
        obtain rfl : ⟨c.timer, generation⟩ = t := Option.some.inj heq
        exact hring ⟨rfl, hdue⟩
  | idle generation number =>
    cases hd
    exact ⟨rfl, rfl⟩
  | gone _ number => cases hd

/-! ## Turns -/

/-- What a deed does at the end of a run in which a call waits, or none. -/
inductive Turn (r : Run α) (now : Duration) (e : Deed α) (x : Option (Call α)) : Prop
  /-- A call takes the place of what waited. -/
  | called (c : Call α) (he : e = .call c.value) (hmoment : c.moment = r.moment)
      (htime : c.time = now) (htimer : c.timer = r.workings.number)
      (hstands : Stands r.delay (r.next now e).workings (some c))
      (hnumber : (r.next now e).workings.number = r.workings.number + 1)
      (hcalls : (r.next now e).calls = c :: r.calls) (hacts : (r.next now e).acts = r.acts)
  /-- The call that waited is acted on. -/
  | acted (c : Call α) (hx : x = some c)
      (hwhy : e = .flush ∨ (e = .ring c.timer ∧ c.time + r.delay ≤ now))
      (hstands : Stands r.delay (r.next now e).workings none)
      (hnumber : (r.next now e).workings.number = r.workings.number)
      (hcalls : (r.next now e).calls = r.calls)
      (hacts : (r.next now e).acts = ⟨r.moment, now, c, !e.isDone⟩ :: r.acts)
  /-- The call that waited does not wait any more. -/
  | stopped (c : Call α) (hx : x = some c) (hwhy : e = .cancel ∨ e = .drop)
      (hstands : Stands r.delay (r.next now e).workings none)
      (hnumber : (r.next now e).workings.number = r.workings.number)
      (hcalls : (r.next now e).calls = r.calls) (hacts : (r.next now e).acts = r.acts)
  /-- What waits goes on waiting. -/
  | unmoved (hwhy : ∀ c ∈ x, c.isEndedBy r.delay ⟨r.moment, now, e⟩ = false)
      (hstands : Stands r.delay (r.next now e).workings x)
      (hnumber : (r.next now e).workings.number = r.workings.number)
      (hcalls : (r.next now e).calls = r.calls) (hacts : (r.next now e).acts = r.acts)

/-- What a deed makes of how things stand. -/
theorem next_of_perform {s s' : Workings (Call α)} {o : Option (Call α)} (hr : r.workings = s)
    (h : s.perform now (e.map (⟨r.moment, now, ·, s.number⟩)) = (o, s')) :
    (r.next now e).workings = s' ∧
      (r.next now e).acts = (o.map (⟨r.moment, now, ·, !e.isDone⟩)).toList ++ r.acts := by
  subst hr
  constructor
  · rw [workings, h]
  · rw [acts, act?, h]

theorem turn_of_waits {generation : UInt64} {number : Nat}
    (hr : r.workings = waiting r.delay c generation number) (now : Duration) (e : Deed α) :
    Turn r now e (some c) := by
  have hnumber : r.workings.number = number := by rw [hr]; rfl
  cases e with
  | call value =>
    obtain ⟨hnext, hacts⟩ := next_of_perform (e := .call value) hr
      (congrArg (Prod.mk none) (call_waiting c r.moment now value))
    exact .called ⟨r.moment, now, value, number⟩ rfl rfl rfl hnumber.symm (hnext ▸ .waits _ _ _)
      (by rw [hnext, hnumber]; rfl)
      (by rw [calls, call?, hr]; rfl) hacts
  | flush =>
    obtain ⟨hnext, hacts⟩ := next_of_perform (e := .flush) hr (flush_waiting c)
    exact .acted c rfl (.inl rfl) (hnext ▸ .idle _ _) (by rw [hnext, hnumber]; rfl) rfl hacts
  | cancel =>
    obtain ⟨hnext, hacts⟩ := next_of_perform (e := .cancel) hr
      (congrArg (Prod.mk none) (cancel_waiting c))
    exact .stopped c rfl (.inl rfl) (hnext ▸ .idle _ _) (by rw [hnext, hnumber]; rfl) rfl hacts
  | drop =>
    obtain ⟨hnext, hacts⟩ := next_of_perform (e := .drop) hr
      (congrArg (Prod.mk none) (drop_waiting c))
    exact .stopped c rfl (.inr rfl) (hnext ▸ .gone _ _) (by rw [hnext, hnumber]) rfl hacts
  | ring n =>
    have hwake := wake_waiting r.delay c generation number now n
    by_cases hring : n = c.timer ∧ c.time + r.delay ≤ now
    · rw [if_pos hring] at hwake
      obtain ⟨hnext, hacts⟩ := next_of_perform (e := .ring n) hr hwake
      exact .acted c rfl (.inr ⟨by rw [hring.1], hring.2⟩) (hnext ▸ .idle _ _)
        (by rw [hnext, hnumber]; rfl) rfl hacts
    · rw [if_neg hring] at hwake
      obtain ⟨hnext, hacts⟩ := next_of_perform (e := .ring n) hr hwake
      refine .unmoved (fun b hb => ?_) (hnext ▸ .waits _ _ _) (by rw [hnext, hnumber]; rfl) rfl
        hacts
      cases hb
      unfold Call.isEndedBy
      simpa using fun _ => not_and.mp hring
  | wait =>
    obtain ⟨hnext, hacts⟩ := next_of_perform (e := .wait) hr (Eq.refl (none, _))
    refine .unmoved (fun b _ => ?_) (hnext ▸ .waits _ _ _) (by rw [hnext, hnumber]; rfl) rfl hacts
    unfold Call.isEndedBy
    exact Bool.and_false _

/-- While no call waits, nothing but a new call makes a difference. -/
theorem turn_of_idle {generation : UInt64} {number : Nat}
    (hr : r.workings = idle r.delay generation number) (now : Duration) (e : Deed α) :
    Turn r now e none := by
  have hnumber : r.workings.number = number := by rw [hr]; rfl
  cases e with
  | call value =>
    obtain ⟨hnext, hacts⟩ := next_of_perform (e := .call value) hr
      (congrArg (Prod.mk none) (call_idle r.moment now value))
    exact .called ⟨r.moment, now, value, number⟩ rfl rfl rfl hnumber.symm (hnext ▸ .waits _ _ _)
      (by rw [hnext, hnumber]; rfl)
      (by rw [calls, call?, hr]; rfl) hacts
  | flush =>
    obtain ⟨hnext, hacts⟩ := next_of_perform (e := .flush) hr flush_idle
    exact .unmoved nofun (hnext ▸ .idle _ _) (by rw [hnext, hnumber]; rfl) rfl hacts
  | cancel =>
    obtain ⟨hnext, hacts⟩ := next_of_perform (e := .cancel) hr
      (congrArg (Prod.mk none) cancel_idle)
    exact .unmoved nofun (hnext ▸ .idle _ _) (by rw [hnext, hnumber]; rfl) rfl hacts
  | drop =>
    obtain ⟨hnext, hacts⟩ := next_of_perform (e := .drop) hr (congrArg (Prod.mk none) drop_idle)
    exact .unmoved nofun (hnext ▸ .gone _ _) (by rw [hnext, hnumber]) rfl hacts
  | ring n =>
    obtain ⟨hnext, hacts⟩ := next_of_perform (e := .ring n) hr (wake_idle now n)
    exact .unmoved nofun (hnext ▸ .idle _ _) (by rw [hnext, hnumber]; rfl) rfl hacts
  | wait =>
    obtain ⟨hnext, hacts⟩ := next_of_perform (e := .wait) hr (Eq.refl (none, _))
    exact .unmoved nofun (hnext ▸ .idle _ _) (by rw [hnext, hnumber]; rfl) rfl hacts

/-- When the debouncer was thrown away, nothing makes a difference. -/
theorem turn_of_gone {d : Debouncer (Call α)} {number : Nat}
    (hr : r.workings = ⟨d, [], number, true⟩) (now : Duration) (e : Deed α) :
    Turn r now e none := by
  have hstays : ∀ e' : Deed (Call α),
      Workings.perform now ⟨d, [], number, true⟩ e' = (none, ⟨d, [], number, true⟩) := by
    intro e'
    cases e' <;> rfl
  obtain ⟨hnext, hacts⟩ := next_of_perform (e := e) hr (hstays _)
  refine .unmoved nofun (hnext ▸ .gone _ _) (by rw [hnext, hr]) ?_ hacts
  cases e with
  | call value => rw [calls, call?, hr]; rfl
  | _ => rfl

theorem Stands.turn {x : Option (Call α)} (h : Stands r.delay r.workings x) (now : Duration)
    (e : Deed α) : Turn r now e x := by
  generalize hr : r.workings = s at h
  cases h with
  | waits c generation number => exact turn_of_waits hr now e
  | idle generation number => exact turn_of_idle hr now e
  | gone d number => exact turn_of_gone hr now e

end Run

end Debouncer

end SmellWatch
