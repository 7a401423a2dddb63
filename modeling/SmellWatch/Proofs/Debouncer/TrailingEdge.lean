import SmellWatch.Proofs.Debouncer.Turns
/-! A debouncer acts on the last call, once things are quiet.

What comes of a call is decided by the first deed that ends its wait (`Run.ending?`): if that
is its timer or a flush, it is acted on, and otherwise it never is (`Call.outcome`).

`Kept` ties this history to how the debouncer and its timers stand, turn by turn.  `trailing_edge`
reads off what it means for the one who calls. -/

namespace SmellWatch

namespace Debouncer

variable {α ι : Type}

namespace Run

variable {r : Run α} {now : Duration} {e : Deed α} {c : Call α} {s : Step α}

/-! ## What ends the wait of a call -/

/-- The first deed that ends the wait of a call. -/
def ending? (c : Call α) : Run α → Option (Step α)
  | start _ _ => none
  | next r now e =>
    (r.ending? c).or
      (if c.isEndedBy r.delay ⟨r.moment, now, e⟩ then some ⟨r.moment, now, e⟩ else none)

/-- What is done for a call whose wait is ended by a deed. -/
def Call.outcome (c : Call α) : Option (Step α) → List (Act α)
  | some ⟨moment, time, .ring _⟩ => [⟨moment, time, c, true⟩]
  | some ⟨moment, time, .flush⟩ => [⟨moment, time, c, false⟩]
  | _ => []

theorem ending?_next_of_some (h : r.ending? c = some s) :
    (r.next now e).ending? c = some s := by
  unfold ending?
  rw [h]
  rfl

theorem ending?_next_of_none (h : r.ending? c = none) :
    (r.next now e).ending? c =
      if c.isEndedBy r.delay ⟨r.moment, now, e⟩ then some ⟨r.moment, now, e⟩ else none := by
  conv_lhs => unfold ending?
  rw [h, Option.none_or]

theorem isEndedBy_of_le (h : s.moment ≤ c.moment) (delay : Duration) :
    c.isEndedBy delay s = false := by
  unfold Call.isEndedBy
  simp [Nat.not_lt.mpr h]

theorem moment_lt_of_mem_steps {r : Run α} (h : s ∈ r.steps) : s.moment < r.moment := by
  induction r with
  | start delay now => cases h
  | next r now e ih =>
    show s.moment < r.moment + 1
    rcases List.mem_cons.mp h with rfl | h
    · exact Nat.lt_succ_self _
    · exact Nat.lt_succ_of_lt (ih h)

theorem ending?_eq_none_iff {r : Run α} :
    r.ending? c = none ↔ ∀ s ∈ r.steps, c.isEndedBy r.delay s = false := by
  induction r with
  | start delay now => simp [ending?, steps]
  | next r now e ih => simp [ending?, steps, delay, Option.or_eq_none_iff, ih, and_comm]

theorem ending?_eq_some_iff {r : Run α} : r.ending? c = some s ↔ r.EndsFirstBy c s := by
  induction r with
  | start delay now => exact ⟨fun h => (nomatch h), fun h => nomatch h.happened⟩
  | next r now e ih =>
    constructor
    · intro h
      cases hr : r.ending? c with
      | some x =>
        rw [ending?_next_of_some hr] at h
        cases h
        obtain ⟨happened, ends, first⟩ := ih.mp hr
        refine ⟨List.mem_cons_of_mem _ happened, ends, fun x hx hends => ?_⟩
        rcases List.mem_cons.mp hx with rfl | hx
        · exact Nat.le_of_lt (moment_lt_of_mem_steps happened)
        · exact first x hx hends
      | none =>
        rw [ending?_next_of_none hr] at h
        split at h
        · rename_i hends
          cases h
          refine ⟨List.mem_cons_self, hends, fun x hx hx' => ?_⟩
          rcases List.mem_cons.mp hx with rfl | hx
          · exact Nat.le_refl _
          · exact absurd ((ending?_eq_none_iff.mp hr x hx).symm.trans hx') (by decide)
        · cases h
    · rintro ⟨happened, ends, first⟩
      rcases List.mem_cons.mp happened with rfl | happened
      · have hr : r.ending? c = none := by
          refine ending?_eq_none_iff.mpr fun x hx => ?_
          cases hends : c.isEndedBy r.delay x with
          | false => rfl
          | true =>
            have hle := first x (List.mem_cons_of_mem _ hx) hends
            exact absurd (moment_lt_of_mem_steps hx) (Nat.not_lt.mpr hle)
        rw [ending?_next_of_none hr]
        exact if_pos ends
      · exact ending?_next_of_some
          (ih.mpr ⟨happened, ends, fun x hx => first x (List.mem_cons_of_mem _ hx)⟩)

/-! ## The debouncer and its history -/

/-- What the debouncer keeps is what its history says. -/
structure Kept (r : Run α) (x : Option (Call α)) : Prop where
  stands : Stands r.delay r.workings x
  waiting : ∀ c, c ∈ x ↔ c ∈ r.calls ∧ r.ending? c = none
  latest : ∀ c ∈ x, r.calls.head? = some c
  past : ∀ c ∈ r.calls, c.moment < r.moment
  numbered : ∀ c ∈ r.calls, c.timer < r.workings.number
  falling : r.calls.Pairwise fun c b => b.timer < c.timer
  ofCall : ∀ a ∈ r.acts, a.call ∈ r.calls
  told : ∀ c ∈ r.calls, r.acts.filter (·.call.timer = c.timer) = c.outcome (r.ending? c)

namespace Kept

variable {x : Option (Call α)} {b : Call α}

theorem start (delay now : Duration) : Kept (.start delay now : Run α) none where
  stands := .idle 0 0
  waiting := fun _ => iff_of_false nofun fun h => nomatch h.1
  latest := nofun
  past := nofun
  numbered := nofun
  falling := .nil
  ofCall := nofun
  told := nofun

theorem eq_of_timer (h : Kept r x) (hc : c ∈ r.calls) (hb : b ∈ r.calls)
    (hcb : c.timer = b.timer) : c = b := by
  have hnodup : (r.calls.map (·.timer)).Nodup :=
    List.Pairwise.map _ (fun c b (hlt : b.timer < c.timer) => Nat.ne_of_gt hlt) h.falling
  exact List.inj_on_of_nodup_map hnodup hc hb hcb

/-- Whatever is done ends the wait of a call that was made before. -/
theorem isEndedBy_of_isDone (h : Kept r x) (hc : c ∈ r.calls) (he : e.isDone = true) :
    c.isEndedBy r.delay ⟨r.moment, now, e⟩ = true := by
  unfold Call.isEndedBy
  cases e <;> simp_all [h.past c hc, Deed.isDone]

/-- When what waited is acted on, its wait is over. -/
theorem isEndedBy_of_acted (h : Kept r x) (hc : c ∈ r.calls)
    (hwhy : e = .flush ∨ (e = .ring c.timer ∧ c.time + r.delay ≤ now)) :
    c.isEndedBy r.delay ⟨r.moment, now, e⟩ = true := by
  rcases hwhy with rfl | ⟨rfl, hle⟩
  · exact h.isEndedBy_of_isDone hc rfl
  · unfold Call.isEndedBy
    simp [h.past c hc, hle]

theorem outcome_of_acted (hwhy : e = .flush ∨ (e = .ring c.timer ∧ c.time + r.delay ≤ now)) :
    c.outcome (some ⟨r.moment, now, e⟩) = [⟨r.moment, now, c, !e.isDone⟩] := by
  rcases hwhy with rfl | ⟨rfl, -⟩ <;> rfl

/-- A call that ended before is as it was, when nothing is acted on. -/
theorem told_of_ended (h : Kept r x) (hc : c ∈ r.calls) (hsome : r.ending? c = some s)
    (hacts : (r.next now e).acts = r.acts) :
    (r.next now e).acts.filter (·.call.timer = c.timer) =
      c.outcome ((r.next now e).ending? c) := by
  rw [hacts, ending?_next_of_some hsome, h.told c hc, hsome]

/-- No call waits any more, if what waited is ended. -/
theorem waiting_of_ended (h : Kept r x) (hcalls : (r.next now e).calls = r.calls)
    (hends : ∀ c ∈ x, c.isEndedBy r.delay ⟨r.moment, now, e⟩ = true) (c : Call α) :
    c ∈ (none : Option (Call α)) ↔
      c ∈ (r.next now e).calls ∧ (r.next now e).ending? c = none := by
  refine iff_of_false nofun ?_
  rintro ⟨hc, hnone⟩
  rw [hcalls] at hc
  cases hr : r.ending? c with
  | some s => cases (ending?_next_of_some hr).symm.trans hnone
  | none =>
    rw [ending?_next_of_none hr, if_pos (hends c ((h.waiting c).mpr ⟨hc, hr⟩))] at hnone
    cases hnone

/-! ### One lemma for each turn -/

theorem called (h : Kept r x) (he : e = .call c.value) (hmoment : c.moment = r.moment)
    (htimer : c.timer = r.workings.number)
    (hstands : Stands r.delay (r.next now e).workings (some c))
    (hnumber : (r.next now e).workings.number = r.workings.number + 1)
    (hcalls : (r.next now e).calls = c :: r.calls) (hacts : (r.next now e).acts = r.acts) :
    Kept (r.next now e) (some c) := by
  -- the new call waits, since nothing has happened after it, and no other call does
  have hnew : (r.next now e).ending? c = none := by
    refine ending?_eq_none_iff.mpr fun s hs => isEndedBy_of_le ?_ _
    rw [hmoment]
    exact Nat.lt_succ_iff.mp (moment_lt_of_mem_steps hs)
  have hended : ∀ b ∈ r.calls, r.ending? b = none →
      (r.next now e).ending? b = some ⟨r.moment, now, e⟩ := by
    intro b hb hr
    rw [ending?_next_of_none hr, if_pos (h.isEndedBy_of_isDone hb (he ▸ rfl))]
  refine ⟨hstands, fun b => ?waiting, fun b hb => ?latest, ?past, ?numbered, ?falling, ?ofCall,
    ?told⟩
  all_goals rw [hcalls]
  case waiting =>
    constructor
    · intro hb
      cases hb
      exact ⟨List.mem_cons_self, hnew⟩
    · rintro ⟨hb, hnone⟩
      rcases List.mem_cons.mp hb with rfl | hb
      · rfl
      · cases hr : r.ending? b with
        | some s => cases (ending?_next_of_some hr).symm.trans hnone
        | none => cases (hended b hb hr).symm.trans hnone
  case latest =>
    cases hb
    rfl
  case past =>
    exact List.forall_mem_cons.mpr ⟨hmoment ▸ Nat.lt_succ_self _,
      fun b hb => Nat.lt_succ_of_lt (h.past b hb)⟩
  case numbered =>
    rw [hnumber]
    exact List.forall_mem_cons.mpr ⟨htimer ▸ Nat.lt_succ_self _,
      fun b hb => Nat.lt_succ_of_lt (h.numbered b hb)⟩
  case falling => exact List.pairwise_cons.mpr ⟨fun b hb => htimer ▸ h.numbered b hb, h.falling⟩
  case ofCall =>
    rw [hacts]
    exact fun a ha => List.mem_cons_of_mem _ (h.ofCall a ha)
  case told =>
    refine List.forall_mem_cons.mpr ⟨?_, fun b hb => ?_⟩
    · rw [hnew, hacts]
      refine List.filter_eq_nil_iff.mpr fun a ha => ?_
      have hlt := h.numbered _ (h.ofCall a ha)
      simp only [decide_eq_true_eq]
      omega
    · cases hr : r.ending? b with
      | some s => exact h.told_of_ended hb hr hacts
      | none => rw [hacts, hended b hb hr, h.told b hb, hr, he]; rfl

theorem acted (h : Kept r (some c))
    (hwhy : e = .flush ∨ (e = .ring c.timer ∧ c.time + r.delay ≤ now))
    (hstands : Stands r.delay (r.next now e).workings none)
    (hnumber : (r.next now e).workings.number = r.workings.number)
    (hcalls : (r.next now e).calls = r.calls)
    (hacts : (r.next now e).acts = ⟨r.moment, now, c, !e.isDone⟩ :: r.acts) :
    Kept (r.next now e) none := by
  obtain ⟨hc, hwaits⟩ := (h.waiting c).mp rfl
  have hends := h.isEndedBy_of_acted hc hwhy
  refine ⟨hstands, h.waiting_of_ended hcalls fun b hb => ?ends, nofun, ?past, ?numbered,
    hcalls ▸ h.falling, ?ofCall, ?told⟩
  case ends =>
    cases hb
    exact hends
  case past => exact fun b hb => Nat.lt_succ_of_lt (h.past b (hcalls ▸ hb))
  case numbered =>
    rw [hcalls, hnumber]
    exact h.numbered
  case ofCall =>
    rw [hacts, hcalls]
    exact List.forall_mem_cons.mpr ⟨hc, h.ofCall⟩
  case told =>
    rw [hcalls]
    intro b hb
    rw [hacts, List.filter_cons]
    cases hr : r.ending? b with
    | none =>
      obtain rfl : c = b := Option.some.inj ((h.waiting b).mpr ⟨hb, hr⟩)
      rw [ending?_next_of_none hr, if_pos hends, outcome_of_acted hwhy,
        if_pos (decide_eq_true rfl), h.told c hb, hr]
      rfl
    | some s =>
      have hne : c.timer ≠ b.timer := by
        intro heq
        obtain rfl := h.eq_of_timer hc hb heq
        cases hr.symm.trans hwaits
      rw [ending?_next_of_some hr, if_neg (by simpa using hne), h.told b hb, hr]

theorem stopped (h : Kept r (some c)) (hwhy : e = .cancel ∨ e = .drop)
    (hstands : Stands r.delay (r.next now e).workings none)
    (hnumber : (r.next now e).workings.number = r.workings.number)
    (hcalls : (r.next now e).calls = r.calls) (hacts : (r.next now e).acts = r.acts) :
    Kept (r.next now e) none := by
  obtain ⟨hc, hwaits⟩ := (h.waiting c).mp rfl
  have hends : c.isEndedBy r.delay ⟨r.moment, now, e⟩ = true :=
    h.isEndedBy_of_isDone hc (by rcases hwhy with rfl | rfl <;> rfl)
  refine ⟨hstands, h.waiting_of_ended hcalls fun b hb => ?ends, nofun, ?past, ?numbered,
    hcalls ▸ h.falling, ?ofCall, ?told⟩
  case ends =>
    cases hb
    exact hends
  case past => exact fun b hb => Nat.lt_succ_of_lt (h.past b (hcalls ▸ hb))
  case numbered =>
    rw [hcalls, hnumber]
    exact h.numbered
  case ofCall =>
    rw [hacts, hcalls]
    exact h.ofCall
  case told =>
    rw [hcalls]
    intro b hb
    cases hr : r.ending? b with
    | some s => exact h.told_of_ended hb hr hacts
    | none =>
      obtain rfl : c = b := Option.some.inj ((h.waiting b).mpr ⟨hb, hr⟩)
      rw [ending?_next_of_none hr, if_pos hends, hacts, h.told c hb, hr]
      rcases hwhy with rfl | rfl <;> rfl

theorem unmoved (h : Kept r x)
    (hwhy : ∀ c ∈ x, c.isEndedBy r.delay ⟨r.moment, now, e⟩ = false)
    (hstands : Stands r.delay (r.next now e).workings x)
    (hnumber : (r.next now e).workings.number = r.workings.number)
    (hcalls : (r.next now e).calls = r.calls) (hacts : (r.next now e).acts = r.acts) :
    Kept (r.next now e) x := by
  have hwaits : ∀ c ∈ r.calls, r.ending? c = none → (r.next now e).ending? c = none := by
    intro c hc hnone
    rw [ending?_next_of_none hnone, hwhy c ((h.waiting c).mpr ⟨hc, hnone⟩)]
    rfl
  refine ⟨hstands, fun c => (h.waiting c).trans ?waiting, hcalls ▸ h.latest, ?past, ?numbered,
    hcalls ▸ h.falling, ?ofCall, ?told⟩
  case waiting =>
    rw [hcalls]
    refine and_congr_right fun hc => ⟨hwaits c hc, fun hnone => ?_⟩
    cases hr : r.ending? c with
    | some s => cases (ending?_next_of_some hr).symm.trans hnone
    | none => rfl
  case past => exact fun c hc => Nat.lt_succ_of_lt (h.past c (hcalls ▸ hc))
  case numbered =>
    rw [hcalls, hnumber]
    exact h.numbered
  case ofCall =>
    rw [hacts, hcalls]
    exact h.ofCall
  case told =>
    rw [hcalls]
    intro c hc
    cases hr : r.ending? c with
    | some s => exact h.told_of_ended hc hr hacts
    | none => rw [hacts, hwaits c hc hr, h.told c hc, hr]

theorem next (h : Kept r x) (now : Duration) (e : Deed α) : ∃ x', Kept (r.next now e) x' := by
  cases h.stands.turn now e with
  | called c he hmoment htime htimer hstands hnumber hcalls hacts =>
    exact ⟨some c, h.called he hmoment htimer hstands hnumber hcalls hacts⟩
  | acted c hx hwhy hstands hnumber hcalls hacts =>
    subst hx
    exact ⟨none, h.acted hwhy hstands hnumber hcalls hacts⟩
  | stopped c hx hwhy hstands hnumber hcalls hacts =>
    subst hx
    exact ⟨none, h.stopped hwhy hstands hnumber hcalls hacts⟩
  | unmoved hwhy hstands hnumber hcalls hacts =>
    exact ⟨x, h.unmoved hwhy hstands hnumber hcalls hacts⟩

end Kept

theorem kept (r : Run α) : ∃ x, Kept r x := by
  induction r with
  | start delay now => exact ⟨none, .start delay now⟩
  | next r now e ih =>
    obtain ⟨x, hx⟩ := ih
    exact hx.next now e

/-! ## What it means for a caller -/

theorem Kept.mem_acts_iff {x : Option (Call α)} (h : Kept r x) (hc : c ∈ r.calls) {a : Act α}
    (ha : a.call = c) : a ∈ r.acts ↔ a ∈ c.outcome (r.ending? c) := by
  rw [← h.told c hc, List.mem_filter]
  simp [ha]

/-- What is done about a call is done by the deed that ended its wait. -/
theorem Call.of_mem_outcome {x : Option (Step α)} {a : Act α} (ha : a ∈ c.outcome x) :
    a.call = c ∧
      ((a.byTimer = true ∧ ∃ n, x = some ⟨a.moment, a.time, .ring n⟩) ∨
        (a.byTimer = false ∧ x = some ⟨a.moment, a.time, .flush⟩)) := by
  unfold Call.outcome at ha
  split at ha
  · obtain rfl := List.mem_singleton.mp ha
    exact ⟨rfl, .inl ⟨rfl, _, rfl⟩⟩
  · obtain rfl := List.mem_singleton.mp ha
    exact ⟨rfl, .inr ⟨rfl, rfl⟩⟩
  · cases ha

theorem EndsFirstBy.of_ring {k : Nat} {t : Duration} {n : Nat}
    (h : r.EndsFirstBy c ⟨k, t, .ring n⟩) : n = c.timer ∧ c.time + r.delay ≤ t := by
  have := h.ends
  unfold Call.isEndedBy at this
  simp only [Bool.and_eq_true, decide_eq_true_eq] at this
  exact this.2

theorem EndsFirstBy.moment_lt (h : r.EndsFirstBy c s) : c.moment < s.moment := by
  by_contra hle
  cases (isEndedBy_of_le (Nat.not_lt.mp hle) r.delay).symm.trans h.ends

/-- A timer acts on its call exactly if it is what ended the wait. -/
theorem Kept.mem_acts_byTimer_iff {x : Option (Call α)} (h : Kept r x) (hc : c ∈ r.calls)
    {k : Nat} {t : Duration} :
    ⟨k, t, c, true⟩ ∈ r.acts ↔ r.EndsFirstBy c ⟨k, t, .ring c.timer⟩ := by
  rw [h.mem_acts_iff hc rfl, ← ending?_eq_some_iff]
  constructor
  · intro ha
    rcases (Call.of_mem_outcome ha).2 with ⟨-, n, hsome⟩ | ⟨hfalse, -⟩
    · rw [hsome, (ending?_eq_some_iff.mp hsome).of_ring.1]
    · cases hfalse
  · intro hsome
    rw [hsome]
    exact List.mem_singleton.mpr rfl

/-- A flush acts on a call exactly if it is what ended the wait. -/
theorem Kept.mem_acts_byFlush_iff {x : Option (Call α)} (h : Kept r x) (hc : c ∈ r.calls)
    {k : Nat} {t : Duration} :
    ⟨k, t, c, false⟩ ∈ r.acts ↔ r.EndsFirstBy c ⟨k, t, .flush⟩ := by
  rw [h.mem_acts_iff hc rfl, ← ending?_eq_some_iff]
  constructor
  · intro ha
    rcases (Call.of_mem_outcome ha).2 with ⟨hfalse, -⟩ | ⟨-, hsome⟩
    · cases hfalse
    · exact hsome
  · intro hsome
    rw [hsome]
    exact List.mem_singleton.mpr rfl

/-- When time does not go past a timer that is set, no call waits for longer than the delay. -/
theorem ended_in_time {r : Run α} (hr : r.IsPunctual) (hc : c ∈ r.calls) :
    (∀ s, r.ending? c = some s → s.time ≤ c.time + r.delay) ∧
      (r.ending? c = none → r.clock ≤ c.time + r.delay) := by
  induction r with
  | start delay now => cases hc
  | next r now e ih =>
    obtain ⟨hr, -, hdue⟩ := hr
    show (∀ s : Step α, _ → s.time ≤ c.time + r.delay) ∧ (_ → now ≤ c.time + r.delay)
    by_cases hold : c ∈ r.calls
    · cases hsome : r.ending? c with
      | some x =>
        rw [ending?_next_of_some hsome]
        refine ⟨fun s hs => ?_, nofun⟩
        cases hs
        exact (ih hr hold).1 x hsome
      | none =>
        obtain ⟨x, hkept⟩ := kept r
        obtain rfl : x = some c := (hkept.waiting c).mpr ⟨hold, hsome⟩
        obtain ⟨t, ht⟩ := hkept.stands.mem_timers
        have hnow : now ≤ c.time + r.delay := hdue _ ht
        refine ⟨fun s hs => ?_, fun _ => hnow⟩
        rw [ending?_next_of_none hsome] at hs
        split at hs
        · cases hs
          exact hnow
        · cases hs
    · -- a new call: nothing has happened after it
      obtain ⟨hmoment, htime⟩ : c.moment = r.moment ∧ c.time = now := by
        rcases List.mem_append.mp hc with hnew | hc
        · cases e with
          | call value =>
            obtain ⟨-, hnew⟩ := Option.ite_none_left_eq_some.mp (Option.mem_toList.mp hnew)
            cases hnew
            exact ⟨rfl, rfl⟩
          | _ => cases hnew
        · exact absurd hc hold
      refine ⟨fun s hs => ?_, fun _ => htime ▸ Nat.le_add_right _ _⟩
      have hs := ending?_eq_some_iff.mp hs
      exact absurd (hmoment ▸ hs.moment_lt)
        (Nat.not_lt.mpr (Nat.lt_succ_iff.mp (moment_lt_of_mem_steps hs.happened)))

/-- When nothing is done after a call until its timer is past, the timer acts on it. -/
theorem Kept.exists_act_byTimer {x : Option (Call α)} (h : Kept r x) (hr : r.IsPunctual)
    (hc : c ∈ r.calls) (hlate : c.time + r.delay < r.clock)
    (hquiet : ∀ s ∈ r.steps, c.moment < s.moment → s.time ≤ c.time + r.delay →
      s.deed.isDone = false) :
    ∃ k, ⟨k, c.time + r.delay, c, true⟩ ∈ r.acts := by
  obtain ⟨hsome, hnone⟩ := ended_in_time hr hc
  cases hs : r.ending? c with
  | none => exact absurd hlate (Nat.not_lt.mpr (hnone hs))
  | some s =>
    have hfirst := ending?_eq_some_iff.mp hs
    have hdone := hquiet s hfirst.happened hfirst.moment_lt (hsome s hs)
    obtain ⟨k, t, e⟩ := s
    cases e with
    | ring n =>
      obtain ⟨rfl, hle⟩ := hfirst.of_ring
      obtain rfl : t = c.time + r.delay := Nat.le_antisymm (hsome _ hs) hle
      exact ⟨k, (h.mem_acts_byTimer_iff hc).mpr hfirst⟩
    | wait =>
      have := hfirst.ends
      simp [Call.isEndedBy] at this
    | _ => cases hdone

/-- A debouncer acts on the last call, once things are quiet. -/
structure IsTrailing (r : Run α) : Prop where
  /-- A timer is the timer of one call. -/
  distinct : (r.calls.map (·.timer)).Nodup
  /-- What is acted on is a call that was made before. -/
  called : ∀ a ∈ r.acts, a.call ∈ r.calls ∧ a.call.moment < a.moment
  /-- No call is acted on twice. -/
  once : (r.acts.map (·.call.timer)).Nodup
  /-- A timer acts on its call exactly if nothing was done since, and it is time. -/
  byTimer : ∀ c ∈ r.calls, ∀ k t, ⟨k, t, c, true⟩ ∈ r.acts ↔
    r.EndsFirstBy c ⟨k, t, .ring c.timer⟩
  /-- A flush acts on the call that waits. -/
  byFlush : ∀ c ∈ r.calls, ∀ k t, ⟨k, t, c, false⟩ ∈ r.acts ↔ r.EndsFirstBy c ⟨k, t, .flush⟩
  /-- What waits is the latest call. -/
  latest : ∀ c, r.Awaits c → r.calls.head? = some c
  /-- A flush tells of the call that waits, and of nothing if there is none. -/
  flushed : ∀ d, r.debouncer? = some d → ∀ c, d.flush.1 = some c ↔ r.Awaits c
  /-- A call that was replaced, canceled or thrown away is never acted on. -/
  stopped : ∀ c ∈ r.calls, ∀ s, r.EndsFirstBy c s →
    (s.deed = .cancel ∨ s.deed = .drop ∨ ∃ value, s.deed = .call value) →
    ∀ a ∈ r.acts, a.call ≠ c
  /-- A timer acts when the delay has passed, and not later. -/
  onTime : r.IsPunctual → ∀ c ∈ r.calls, ∀ k t,
    r.EndsFirstBy c ⟨k, t, .ring c.timer⟩ → t = c.time + r.delay
  /-- A call after which nothing is done until the delay has passed is acted on. -/
  inTheEnd : r.IsPunctual → ∀ c ∈ r.calls, c.time + r.delay < r.clock →
    (∀ s ∈ r.steps, c.moment < s.moment → s.time ≤ c.time + r.delay → s.deed.isDone = false) →
    ∃ k, ⟨k, c.time + r.delay, c, true⟩ ∈ r.acts
  /-- Of a debouncer that is there, the timer that it has is the one that was not aborted: what
  comes of a timer that wakes is what `ring` says. -/
  rings : ∀ d, r.debouncer? = some d → ∀ now t, (∀ u ∈ d.timer, u.number = t.number → u = t) →
    (r.workings.wake now t.number).1 = (d.ring now t).1 ∧
      (r.workings.wake now t.number).2.debouncer = (d.ring now t).2

theorem Kept.once {x : Option (Call α)} (h : Kept r x) :
    (r.acts.map (·.call.timer)).Nodup := by
  refine List.nodup_iff_count_le_one.mpr fun n => ?_
  rw [List.count_eq_countP, List.countP_map, List.countP_eq_length_filter]
  by_cases hn : ∃ c ∈ r.calls, c.timer = n
  · obtain ⟨c, hc, rfl⟩ := hn
    have htold := h.told c hc
    have hlength : (c.outcome (r.ending? c)).length ≤ 1 := by
      unfold Call.outcome
      split <;> simp
    rw [← htold] at hlength
    exact hlength
  · have hnone : r.acts.filter ((· == n) ∘ (·.call.timer)) = [] := by
      refine List.filter_eq_nil_iff.mpr fun a ha => ?_
      simpa using fun heq => hn ⟨a.call, h.ofCall a ha, heq⟩
    simp [hnone]

theorem isTrailing (r : Run α) : r.IsTrailing := by
  obtain ⟨x, h⟩ := kept r
  have hawaits : ∀ c, r.Awaits c ↔ c ∈ x := fun c =>
    (and_congr_right fun _ => ending?_eq_none_iff.symm).trans (h.waiting c).symm
  refine ⟨?distinct, ?called, h.once, fun _ hc _ _ => h.mem_acts_byTimer_iff hc,
    fun _ hc _ _ => h.mem_acts_byFlush_iff hc, fun c hc => h.latest c ((hawaits c).mp hc), ?flushed,
    ?stopped, ?onTime, fun hr _ hc hlate hquiet => h.exists_act_byTimer hr hc hlate hquiet,
    fun d hd now t ht => h.stands.wake_eq hd now ht⟩
  case distinct =>
    exact List.Pairwise.map _ (fun c b (hlt : b.timer < c.timer) => Nat.ne_of_gt hlt) h.falling
  case called =>
    intro a ha
    have hc := h.ofCall a ha
    have hout := (h.mem_acts_iff hc rfl).mp ha
    refine ⟨hc, ?_⟩
    rcases (Call.of_mem_outcome hout).2 with ⟨-, n, hsome⟩ | ⟨-, hsome⟩ <;>
      exact (ending?_eq_some_iff.mp hsome).moment_lt
  case flushed =>
    intro d hd c
    rw [hawaits, ← h.stands.pending_eq hd]
    exact Option.mem_def.symm
  case stopped =>
    intro c hc s hs hwhy a ha heq
    rw [h.mem_acts_iff hc heq, ending?_eq_some_iff.mpr hs] at ha
    obtain ⟨k, t, e⟩ := s
    obtain rfl | rfl | ⟨value, rfl⟩ := hwhy <;> cases ha
  case onTime =>
    intro hr c hc k t hs
    exact Nat.le_antisymm ((ended_in_time hr hc).1 _ (ending?_eq_some_iff.mpr hs)) hs.of_ring.2

end Run

/-! ## Several debouncers -/

namespace Household

variable [DecidableEq ι]

/-- In a run the debouncer keeps calls in place of their values. -/
theorem perform_values (r : Run α) (now : Duration) (e : Deed α) :
    (r.workings.map (·.value)).perform now e =
      ((r.workings.perform now (e.map (⟨r.moment, now, ·, r.workings.number⟩))).1.map (·.value),
        (r.next now e).workings.map (·.value)) := by
  have hvalues : (e.map (Run.Call.mk r.moment now · r.workings.number)).map (·.value) = e := by
    cases e <;> rfl
  have hmap := Workings.perform_map (·.value) now r.workings
    (e.map (Run.Call.mk r.moment now · r.workings.number))
  rw [hvalues] at hmap
  exact hmap

theorem workings_of (h : Household ι α) (name : ι) :
    h.workings name = (h.of name).workings.map (·.value) := by
  induction h with
  | start delay now => rfl
  | next h now other e ih =>
    simp only [workings, of]
    by_cases hname : other = name
    · subst hname
      rw [if_pos rfl, if_pos rfl, ih, perform_values]
    · rw [if_neg (Ne.symm hname), if_neg hname, ih]

theorem acted_of (h : Household ι α) (name : ι) :
    (h.acted.filter (·.1 = name)).map (·.2) =
      (h.of name).acts.map fun a => (a.time, a.call.value) := by
  induction h with
  | start delay now => rfl
  | next h now other e ih =>
    simp only [acted, of, List.filter_append, List.map_append, ih]
    by_cases hname : other = name
    · subst hname
      rw [if_pos rfl, workings_of, perform_values, Run.acts, List.map_append, Run.act?]
      cases ((h.of other).workings.perform now _).1 <;> simp
    · rw [if_neg hname]
      cases ((h.workings other).perform now e).1 <;> simp [hname]

/-- Each debouncer acts on its last call once it is quiet, whatever is done to the others. -/
theorem trailing_edge (h : Household ι α) (name : ι) :
    (h.of name).IsTrailing ∧ h.workings name = (h.of name).workings.map (·.value) ∧
      (h.acted.filter (·.1 = name)).map (·.2) =
        (h.of name).acts.map fun a => (a.time, a.call.value) :=
  ⟨(h.of name).isTrailing, h.workings_of name, h.acted_of name⟩

/-- Of three calls in quick succession only the last is acted on. -/
example :
    ((((((start (fun _ => 200) 0 : Household Unit Nat).next 0 () (.call 1)).next 50 ()
      (.call 2)).next 100 () (.call 3)).next 200 () (.ring 0)).next 300 () (.ring 2)).acted =
    [((), 300, 3)] := by decide

end Household

end Debouncer

end SmellWatch
