import SmellWatch.Proofs.RequestQueue
import SmellWatch.Proofs.Watch.Stride
/-! The queue of a watch and what the watch owes.

What is owed and has no outcome is in the queue, and the other way round, ticket by
ticket (`Accounts`).  `Booking.accounts` says that every step keeps it so; hence it is so at
the end of every run (`Run.accounts`).

`OwedStep` tells what one step does to a single analysis that is owed. -/

namespace SmellWatch

namespace Watch

variable {now : Duration} {id : DocumentId} {w w' : Watch} {e : Event} {fx : List Effect}
  {owed : List Owed}

/-- A queue of analyses. -/
abbrev Queue := RequestQueue Analysis (List Finding) RemoteError

/-- What the queue of a watch settles. -/
abbrev Settled := RequestQueue.Settled (List Finding) RemoteError

variable {q q' : Queue} {settled : List Settled}

/-! ## Settling what is owed -/

theorem settledBy_ticket (settled : List Settled) (o : Owed) :
    (o.settledBy settled).ticket = o.ticket := by
  unfold Owed.settledBy
  split <;> rfl

theorem settledBy_analysis (settled : List Settled) (o : Owed) :
    (o.settledBy settled).analysis = o.analysis := by
  unfold Owed.settledBy
  split <;> rfl

theorem settledBy_of_not {o : Owed} (h : ∀ s ∈ settled, s.ticket ≠ o.ticket) :
    o.settledBy settled = o := by
  unfold Owed.settledBy
  have : settled.find? (·.ticket = o.ticket) = none := by
    rw [List.find?_eq_none]
    intro s hs
    simpa using h s hs
  rw [this]

theorem settledBy_of_mem {o : Owed} {s : Settled} (h : s ∈ settled) (hs : s.ticket = o.ticket) :
    ∃ s ∈ settled, s.ticket = o.ticket ∧ (o.settledBy settled).outcome = some s.result := by
  unfold Owed.settledBy
  cases hf : settled.find? (·.ticket = o.ticket) with
  | none =>
    rw [List.find?_eq_none] at hf
    exact absurd hs (by simpa using hf s h)
  | some s' => exact ⟨s', List.mem_of_find?_eq_some hf, by simpa using List.find?_some hf, rfl⟩

/-! ## The books -/

/-- The requests in the queue are what is owed without an outcome. -/
structure Accounts (q : Queue) (owed : List Owed) : Prop where
  orderly : q.Orderly
  sorted : owed.Pairwise fun o p => o.ticket < p.ticket
  issued : ∀ o ∈ owed, o.ticket < q.nextTicket
  balanced : ∀ t, t ∈ q.tickets ↔ ∃ o ∈ owed, o.ticket = t ∧ o.outcome = none
  /-- A request that waits has the document of its analysis for a key. -/
  keyed : ∀ x ∈ q.waiting, ∀ o ∈ owed, o.ticket = x.ticket → o.analysis.document = x.key

namespace Accounts

theorem eq_of_ticket (h : Accounts q owed) {o p : Owed} (ho : o ∈ owed) (hp : p ∈ owed)
    (hop : o.ticket = p.ticket) : o = p := by
  have hnodup : (owed.map (·.ticket)).Nodup :=
    List.Pairwise.map _ (fun o p (hlt : o.ticket < p.ticket) => Nat.ne_of_lt hlt) h.sorted
  exact List.inj_on_of_nodup_map hnodup ho hp hop

theorem empty (age : Duration) : Accounts { maxAge := age } [] where
  orderly := ⟨.nil, by simp [RequestQueue.tickets], by simp, by simp⟩
  sorted := .nil
  issued := by simp
  balanced := by simp [RequestQueue.tickets]
  keyed := by simp

/-- The books balance when what is settled is noted. -/
theorem settle (h : Accounts q owed) (hs : q.Settling settled q') :
    Accounts q' (owed.map (Owed.settledBy settled)) where
  orderly := hs.orderly h.orderly
  sorted := by
    refine List.Pairwise.map _ (fun o p hop => ?_) h.sorted
    rw [settledBy_ticket, settledBy_ticket]
    exact hop
  issued := by
    intro o ho
    obtain ⟨p, hp, rfl⟩ := List.mem_map.mp ho
    rw [settledBy_ticket, hs.counts]
    exact h.issued p hp
  balanced := by
    intro t
    constructor
    · intro ht
      obtain ⟨o, ho, rfl, hnone⟩ := (h.balanced t).mp (hs.stay.subset ht)
      have hsame : o.settledBy settled = o :=
        settledBy_of_not fun s hmem hst => (hs.gone s hmem).2 (hst ▸ ht)
      exact ⟨o, List.mem_map.mpr ⟨o, ho, hsame⟩, rfl, hnone⟩
    · rintro ⟨o, ho, rfl, hnone⟩
      obtain ⟨p, hp, rfl⟩ := List.mem_map.mp ho
      rw [settledBy_ticket]
      have hnot : ∀ s ∈ settled, s.ticket ≠ p.ticket := by
        intro s hmem hst
        obtain ⟨s', -, -, hsome⟩ := settledBy_of_mem hmem hst
        rw [hsome] at hnone
        cases hnone
      rw [settledBy_of_not hnot] at hnone
      rcases hs.go p.ticket ((h.balanced _).mpr ⟨p, hp, rfl, hnone⟩) with hin | ⟨s, hmem, hst⟩
      · exact hin
      · exact absurd hst (hnot s hmem)
  keyed := by
    intro x hx o ho hox
    obtain ⟨p, hp, rfl⟩ := List.mem_map.mp ho
    rw [settledBy_ticket] at hox
    rw [settledBy_analysis]
    exact h.keyed x (hs.waits x hx) p hp hox

/-- The books balance when an analysis is queued. -/
theorem push (h : Accounts q owed) (a : Analysis) (now : Duration) :
    Accounts (q.push ⟨q.nextTicket, a.document, a, now, false⟩)
      (owed ++ [{ ticket := q.nextTicket, analysis := a }]) where
  orderly := h.orderly.push rfl rfl
  sorted := by
    refine List.pairwise_append.mpr ⟨h.sorted, List.pairwise_singleton _ _, ?_⟩
    intro o ho p hp
    rw [List.mem_singleton.mp hp]
    exact h.issued o ho
  issued := by
    intro o ho
    show o.ticket < q.nextTicket + 1
    rcases List.mem_append.mp ho with ho | ho
    · have := h.issued o ho
      omega
    · rw [List.mem_singleton.mp ho]
      exact Nat.lt_succ_self _
  balanced := by
    intro t
    rw [RequestQueue.tickets_push, List.mem_append, h.balanced, List.mem_singleton]
    constructor
    · rintro (⟨o, ho, rfl, hnone⟩ | rfl)
      · exact ⟨o, List.mem_append_left _ ho, rfl, hnone⟩
      · exact ⟨_, List.mem_append_right _ (List.mem_singleton_self _), rfl, rfl⟩
    · rintro ⟨o, ho, rfl, hnone⟩
      rcases List.mem_append.mp ho with ho | ho
      · exact .inl ⟨o, ho, rfl, hnone⟩
      · rw [List.mem_singleton.mp ho]
        exact .inr rfl
  keyed := by
    intro x hx o ho hox
    rcases List.mem_append.mp hx with hx | hx
    · have hlt := h.orderly.issued x.ticket
        (RequestQueue.mem_tickets.mpr (.inr ⟨x, hx, rfl⟩))
      rcases List.mem_append.mp ho with ho | ho
      · exact h.keyed x hx o ho hox
      · rw [List.mem_singleton.mp ho] at hox
        simp only at hox
        omega
    · rw [List.mem_singleton.mp hx] at hox ⊢
      rcases List.mem_append.mp ho with ho | ho
      · have := h.issued o ho
        simp only at hox
        omega
      · rw [List.mem_singleton.mp ho]

/-- The books balance when an analysis that has an outcome is completed. -/
theorem complete (h : Accounts q owed) {o : Owed} (ho : o ∈ owed) (hsome : o.outcome ≠ none) :
    Accounts q (owed.filter (·.ticket ≠ o.ticket)) where
  orderly := h.orderly
  sorted := h.sorted.filter _
  issued := fun p hp => h.issued p (List.mem_filter.mp hp).1
  balanced := by
    intro t
    rw [h.balanced]
    constructor
    · rintro ⟨p, hp, rfl, hnone⟩
      refine ⟨p, List.mem_filter.mpr ⟨hp, ?_⟩, rfl, hnone⟩
      rw [decide_eq_true_eq]
      intro hpo
      rw [h.eq_of_ticket hp ho hpo] at hnone
      exact hsome hnone
    · rintro ⟨p, hp, rfl, hnone⟩
      exact ⟨p, (List.mem_filter.mp hp).1, rfl, hnone⟩
  keyed := fun x hx p hp => h.keyed x hx p (List.mem_filter.mp hp).1

end Accounts

/-! ## Steps -/

/-- What is settled as the work of a request returned it is what the running request
returned. -/
def Faithful (q : Queue) (settled : List Settled) : Prop :=
  ∀ s ∈ settled, ∀ result, s.result = RequestQueue.ofReturn result →
    ∃ x, q.running = some x ∧ x.ticket = s.ticket ∧ x.ended = some (.returned result)

theorem faithful_nil (q : Queue) : Faithful q [] := fun _ hs => absurd hs List.not_mem_nil

/-- What a step does to the books. -/
inductive Booking (now : Duration) (w : Watch) (e : Event) (w' : Watch) (fx : List Effect) : Prop
  /-- Nothing new comes in; what the queue settles is noted. -/
  | settled (settled : List Settled) (hqueue : w.queue.Settling settled w'.queue)
      (howed : w'.owed = w.owed.map (Owed.settledBy settled))
      (hreason : ∀ s ∈ settled, s.result ≠ .error .superseded)
      (hevent : w.concluded? e = none) (hbegun : ∀ a, begun? fx ≠ some (a, true))
      (hfaithful : Faithful w.queue settled)
  /-- An analysis is queued, and may supersede others of its document. -/
  | queued (a : Analysis) (hqueue : w'.queue = (w.queue.enqueue now a.document a).queue)
      (howed : w'.owed =
        w.owed.map (Owed.settledBy (w.queue.enqueue now a.document a).settled) ++
          [{ ticket := w.queue.nextTicket, analysis := a }])
      (hevent : w.concluded? e = none) (hbegun : begun? fx = some (a, true))
      (hfaithful : Faithful w.queue (w.queue.enqueue now a.document a).settled)
  | completed (o : Owed) (outcome : Outcome) (ho : o ∈ w.owed)
      (houtcome : o.outcome = some outcome) (hqueue : w'.queue = w.queue)
      (howed : w'.owed = w.owed.filter (·.ticket ≠ o.ticket))
      (hevent : w.concluded? e = some (o.ticket, outcome)) (hbegun : begun? fx = none)

theorem map_settledBy_nil (owed : List Owed) : owed.map (Owed.settledBy []) = owed :=
  List.map_id' owed

/-- Nothing happens to the books. -/
theorem booking_still (hqueue : w.queue.Settling [] w'.queue)
    (howed : w'.owed = w.owed) (hevent : w.concluded? e = none)
    (hbegun : ∀ a, begun? fx ≠ some (a, true)) : Booking now w e w' fx :=
  .settled [] hqueue (howed.trans (map_settledBy_nil _).symm) (by simp) hevent hbegun
    (faithful_nil _)

theorem concluded?_completion {o : Owed} {outcome : Outcome}
    (hfound : w.owed.find? (·.ticket = o.ticket) = some o) (houtcome : o.outcome = some outcome) :
    w.concluded? (.ran (.completion o.ticket)) = some (o.ticket, outcome) := by
  simp [concluded?, hfound, houtcome]

theorem concluded?_of_isReconfigured (h : e.isReconfigured = true) : w.concluded? e = none := by
  cases e <;> first | rfl | cases h

theorem Stride.booking (h : Stride now w e w' fx) (ho : w.queue.Orderly) :
    Booking now w e w' fx := by
  have hrefl := RequestQueue.Settling.refl ho
  cases h with
  | still _ howed hqueue _ hevent _ hfx =>
    refine booking_still ?_ howed hevent fun a => hfx.not_begun a true
    rcases hqueue with hqueue | ⟨x, hqueue⟩
    · exact hqueue ▸ hrefl
    · exact hqueue ▸ RequestQueue.settling_finish ho x
  | edited _ _ _ _ howed hqueue _ _ hevent _ hfx =>
    exact booking_still (hqueue ▸ hrefl) howed hevent fun a => hfx.not_begun a true
  | replayed _ _ _ _ _ _ _ _ _ howed hqueue _ hevent _ hfx =>
    refine booking_still (hqueue ▸ hrefl) howed hevent fun a => ?_
    rw [hfx, begun?_published]
    simp
  | begun id d a _ _ ha _ howed hqueue _ hevent _ hbegun _ =>
    obtain ⟨rfl, -, -, -⟩ := ha
    exact .queued a hqueue howed hevent hbegun fun s hs result hresult =>
      absurd hresult (RequestQueue.not_ofReturn_of_enqueue ho hs)
  | fellBack _ _ a _ _ _ _ _ howed hqueue _ hevent _ hfx =>
    refine booking_still (hqueue ▸ hrefl) howed hevent fun b => ?_
    rw [hfx, begun?_begun]
    simp
  | turned _ howed hqueue _ hevent _ hfx =>
    obtain ⟨hset, hreason⟩ := RequestQueue.turn_spec ho now
    exact .settled _ (hqueue ▸ hset) howed hreason hevent (fun a => hfx.not_begun a true)
      fun s hs result hresult => RequestQueue.ofReturn_of_turn ho hs hresult
  | answered o outcome _ _ hfound houtcome _ _ _ howed hqueue _ hevent hfx =>
    refine .completed o outcome (List.mem_of_find?_eq_some hfound) houtcome hqueue howed ?_ ?_
    · rw [hevent]
      exact concluded?_completion hfound houtcome
    · rw [hfx]
      rfl
  | lapsed o outcome hfound houtcome _ _ howed hqueue _ hevent hfx =>
    refine .completed o outcome (List.mem_of_find?_eq_some hfound) houtcome hqueue howed ?_ hfx.1
    rw [hevent]
    exact concluded?_completion hfound houtcome
  | closed id _ howed hqueue _ hevent hbegun _ =>
    obtain ⟨hset, hreason⟩ := RequestQueue.cancelWhere_spec ho (· = id)
    refine .settled _ (hqueue ▸ hset) howed hreason (hevent ▸ rfl) (fun a => ?_)
      fun s hs result hresult => absurd hresult (RequestQueue.not_ofReturn_of_cancelWhere ho hs)
    rw [hbegun]
    simp
  | reconfigured _ _ howed hqueue _ _ hevent hfx =>
    obtain ⟨age, hqueue⟩ := hqueue
    exact booking_still (hqueue ▸ RequestQueue.settling_setMaxAge ho age) howed
      (concluded?_of_isReconfigured hevent) fun a => hfx.not_begun a true
  | configSet _ _ howed hqueue _ hevent hfx =>
    refine booking_still (hqueue ▸ hrefl) howed (hevent ▸ rfl) fun a => ?_
    rw [hfx]
    simp [begun?]
  | shutDown _ howed hqueue hevent hfx =>
    obtain ⟨hset, hreason⟩ := RequestQueue.cancelWhere_spec ho fun _ => true
    exact .settled _ (hqueue ▸ hset) howed hreason (hevent ▸ rfl) (fun a => hfx.not_begun a true)
      fun s hs result hresult => absurd hresult (RequestQueue.not_ofReturn_of_cancelWhere ho hs)

/-- The books balance after every step. -/
theorem Booking.accounts (h : Booking now w e w' fx) (ha : Accounts w.queue w.owed) :
    Accounts w'.queue w'.owed := by
  cases h with
  | settled settled hqueue howed _ _ _ _ =>
    rw [howed]
    exact ha.settle hqueue
  | queued a hqueue howed _ _ _ =>
    rw [hqueue, howed, RequestQueue.enqueue_queue, RequestQueue.enqueue_settled]
    exact (ha.settle (RequestQueue.settling_evicted ha.orderly _)).push a now
  | completed o outcome ho houtcome hqueue howed _ _ =>
    rw [hqueue, howed]
    refine ha.complete ho ?_
    rw [houtcome]
    simp

/-- The books of a watch balance in every run. -/
theorem Run.accounts (r : Run) : Accounts r.watch.queue r.watch.owed := by
  induction r with
  | start options config now => exact .empty options.maxQueueAge
  | next r now e ih => exact ((r.stride now e).booking ih.orderly).accounts ih

/-! ## What becomes of an analysis that is owed -/

/-- Owed is what was owed before or was begun now, save for what was completed; and what
is superseded now has a newer analysis of its document. -/
structure OwedStep (w : Watch) (e : Event) (w' : Watch) (fx : List Effect) : Prop where
  back : ∀ o' ∈ w'.owed,
    (∃ a, begun? fx = some (a, true) ∧ o' = { ticket := w.queue.nextTicket, analysis := a }) ∨
    ∃ o ∈ w.owed, o.ticket = o'.ticket ∧ o.analysis = o'.analysis ∧
      (∀ x, w.concluded? e ≠ some (o.ticket, x)) ∧
      (o'.outcome = some (.error .superseded) → o.outcome = some (.error .superseded) ∨
        ∃ a, begun? fx = some (a, true) ∧ a.document = o.analysis.document)
  on : ∀ o ∈ w.owed, (∃ x, w.concluded? e = some (o.ticket, x)) ∨
    ∃ o' ∈ w'.owed, o'.ticket = o.ticket ∧ o'.analysis = o.analysis
  new : ∀ a, begun? fx = some (a, true) →
    { ticket := w.queue.nextTicket, analysis := a } ∈ w'.owed ∧
      w'.queue.nextTicket = w.queue.nextTicket + 1
  counts : (∀ a, begun? fx ≠ some (a, true)) → w'.queue.nextTicket = w.queue.nextTicket
  /-- An outcome that was returned has been there, or the running request returned it. -/
  returned : ∀ o' ∈ w'.owed, ∀ result, o'.outcome = some (RequestQueue.ofReturn result) →
    ∃ o ∈ w.owed, o.ticket = o'.ticket ∧ o.analysis = o'.analysis ∧
      (o.outcome = some (RequestQueue.ofReturn result) ∨
        ∃ x, w.queue.running = some x ∧ x.ticket = o.ticket ∧ x.ended = some (.returned result))

theorem settledBy_outcome {o : Owed} {x : Outcome} (h : (o.settledBy settled).outcome = some x) :
    o.outcome = some x ∨ ∃ s ∈ settled, s.ticket = o.ticket ∧ s.result = x := by
  unfold Owed.settledBy at h
  cases hf : settled.find? (·.ticket = o.ticket) with
  | none =>
    rw [hf] at h
    exact .inl h
  | some s =>
    rw [hf] at h
    cases h
    exact .inr ⟨s, List.mem_of_find?_eq_some hf, by simpa using List.find?_some hf, rfl⟩

theorem returned_of_settledBy (hfaithful : Faithful q settled) (o : Owed)
    {result : Except RemoteError (List Finding)}
    (h : (o.settledBy settled).outcome = some (RequestQueue.ofReturn result)) :
    o.outcome = some (RequestQueue.ofReturn result) ∨
      ∃ x, q.running = some x ∧ x.ticket = o.ticket ∧ x.ended = some (.returned result) := by
  rcases settledBy_outcome h with h | ⟨s, hs, hso, hresult⟩
  · exact .inl h
  · obtain ⟨x, hx, hxs, hended⟩ := hfaithful s hs result hresult
    exact .inr ⟨x, hx, hxs.trans hso, hended⟩

theorem Booking.owedStep (h : Booking now w e w' fx) (ha : Accounts w.queue w.owed) :
    OwedStep w e w' fx := by
  cases h with
  | settled settled hqueue howed hreason hevent hbegun hfaithful =>
    refine ⟨fun o' ho' => .inr ?_, fun o ho => .inr ?_, fun a h => absurd h (hbegun a),
      fun _ => hqueue.counts, fun o' ho' result hresult => ?_⟩
    · rw [howed] at ho'
      obtain ⟨o, ho, rfl⟩ := List.mem_map.mp ho'
      refine ⟨o, ho, (settledBy_ticket _ _).symm, (settledBy_analysis _ _).symm, ?_, ?_⟩
      · simp [hevent]
      · intro hsup
        rcases settledBy_outcome hsup with h | ⟨s, hs, -, h⟩
        · exact .inl h
        · exact absurd h (hreason s hs)
    · exact ⟨_, howed ▸ List.mem_map_of_mem ho, settledBy_ticket _ _, settledBy_analysis _ _⟩
    · rw [howed] at ho'
      obtain ⟨o, ho, rfl⟩ := List.mem_map.mp ho'
      exact ⟨o, ho, (settledBy_ticket _ _).symm, (settledBy_analysis _ _).symm,
        returned_of_settledBy hfaithful o hresult⟩
  | queued a hqueue howed hevent hbegun hfaithful =>
    refine ⟨fun o' ho' => ?_, fun o ho => .inr ?_, ?_, fun h => absurd hbegun (h a),
      fun o' ho' result hresult => ?_⟩
    · rw [howed] at ho'
      rcases List.mem_append.mp ho' with ho' | ho'
      · obtain ⟨o, ho, rfl⟩ := List.mem_map.mp ho'
        refine .inr ⟨o, ho, (settledBy_ticket _ _).symm, (settledBy_analysis _ _).symm, ?_, ?_⟩
        · simp [hevent]
        · intro hsup
          rcases settledBy_outcome hsup with h | ⟨s, hs, hso, h⟩
          · exact .inl h
          · obtain ⟨x, hx, hxs, hkey⟩ := RequestQueue.key_of_superseded ha.orderly hs h
            have := ha.keyed x hx o ho (hso.symm.trans hxs.symm)
            exact .inr ⟨a, hbegun, (this.trans hkey).symm⟩
      · exact .inl ⟨a, hbegun, List.mem_singleton.mp ho'⟩
    · exact ⟨_, howed ▸ List.mem_append_left _ (List.mem_map_of_mem ho), settledBy_ticket _ _,
        settledBy_analysis _ _⟩
    · intro b hb
      rw [hbegun] at hb
      cases hb
      rw [howed, hqueue]
      exact ⟨List.mem_append_right _ (List.mem_singleton_self _), rfl⟩
    · rw [howed] at ho'
      rcases List.mem_append.mp ho' with ho' | ho'
      · obtain ⟨o, ho, rfl⟩ := List.mem_map.mp ho'
        exact ⟨o, ho, (settledBy_ticket _ _).symm, (settledBy_analysis _ _).symm,
          returned_of_settledBy hfaithful o hresult⟩
      · rw [List.mem_singleton.mp ho'] at hresult
        cases hresult
  | completed o outcome ho houtcome hqueue howed hevent hbegun =>
    refine ⟨fun p hp => .inr ?_, fun p hp => ?_, fun a h => ?_, fun _ => by rw [hqueue],
      fun p hp result hresult => ?_⟩
    · rw [howed] at hp
      obtain ⟨hp, hne⟩ := List.mem_filter.mp hp
      refine ⟨p, hp, rfl, rfl, fun x hx => ?_, .inl⟩
      rw [hevent, Option.some.injEq, Prod.mk.injEq] at hx
      simp [hx.1] at hne
    · by_cases hpo : p.ticket = o.ticket
      · exact .inl ⟨outcome, hpo ▸ hevent⟩
      · refine .inr ⟨p, howed ▸ List.mem_filter.mpr ⟨hp, ?_⟩, rfl, rfl⟩
        simpa using hpo
    · rw [hbegun] at h
      cases h
    · rw [howed] at hp
      exact ⟨p, (List.mem_filter.mp hp).1, rfl, rfl, .inl hresult⟩

theorem owedStep_step (r : Run) (now : Duration) (e : Event) :
    OwedStep r.watch e (r.next now e).watch (r.next now e).effects :=
  ((r.stride now e).booking r.accounts.orderly).owedStep r.accounts

/-- An analysis that an event concludes was owed and had an outcome. -/
theorem owed_of_concluded? {t : Nat} {x : Outcome} (h : w.concluded? e = some (t, x)) :
    ∃ o ∈ w.owed, o.ticket = t ∧ o.outcome = some x := by
  unfold concluded? at h
  split at h
  · obtain ⟨y, hy, hyx⟩ := Option.map_eq_some_iff.mp h
    cases hyx
    obtain ⟨o, ho, houtcome⟩ := Option.bind_eq_some_iff.mp hy
    exact ⟨o, List.mem_of_find?_eq_some ho, by simpa using List.find?_some ho, houtcome⟩
  · cases h

/-- An analysis is under way exactly while it is owed. -/
theorem Run.isUnderWay_iff_owed (r : Run) (t : Nat) :
    r.watch.IsUnderWay t ↔ ∃ o ∈ r.watch.owed, o.ticket = t := by
  have hbalanced := r.accounts.balanced t
  rw [RequestQueue.mem_tickets] at hbalanced
  unfold IsUnderWay
  constructor
  · rintro (hw | hr | ⟨o, ho, hot, -⟩)
    · obtain ⟨o, ho, hot, -⟩ := hbalanced.mp (.inr hw)
      exact ⟨o, ho, hot⟩
    · obtain ⟨o, ho, hot, -⟩ := hbalanced.mp (.inl hr)
      exact ⟨o, ho, hot⟩
    · exact ⟨o, ho, hot⟩
  · rintro ⟨o, ho, hot⟩
    cases hout : o.outcome with
    | none =>
      rcases hbalanced.mpr ⟨o, ho, hot, hout⟩ with hr | hw
      · exact .inr (.inl hr)
      · exact .inl hw
    | some x => exact .inr (.inr ⟨o, ho, hot, by rw [hout]; rfl⟩)

/-- When nothing is outstanding, no analysis is under way. -/
theorem IsIdle.not_isUnderWay (h : w.IsIdle) (t : Nat) : ¬ w.IsUnderWay t := by
  rintro (⟨q, hq, -⟩ | ⟨x, hx, -⟩ | ⟨o, ho, -, hsome⟩)
  · rw [h.noneWaits] at hq
    exact List.not_mem_nil hq
  · rw [h.noneRuns] at hx
    cases hx
  · rw [h.noneToComplete o ho] at hsome
    cases hsome

end Watch

end SmellWatch
