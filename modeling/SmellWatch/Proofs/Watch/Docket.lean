import SmellWatch.Proofs.Watch.Accounts
/-! The cases of a run and what its watch owes.

A case that went to the queue is owed until it ends, and what is owed has a case that
has not ended (`Docket`).  So whether a case is under way can be read off the case
(`Run.isUnderWay_iff`).  The cases of a run stand in the order in which they were begun,
and each ticket has one case. -/

namespace SmellWatch

namespace Watch

variable {now : Duration} {id : DocumentId} {r : Run} {e : Event}
  {c d : Case}

namespace Run

/-! ## Cases of one more step -/

theorem mem_cases_next :
    c ∈ (r.next now e).cases ↔ r.began? now e = some c ∨ ∃ d ∈ r.cases, r.closing e d = c := by
  show c ∈ (r.began? now e).toList ++ r.cases.map (r.closing e) ↔ _
  simp

theorem began?_eq_some :
    r.began? now e = some c ↔
      ∃ a remote, begun? (r.next now e).effects = some (a, remote) ∧
        c = { analysis := a
              ticket := if remote then some r.watch.queue.nextTicket else none
              begunAt := r.moment
              config := r.watch.store.config } := by
  unfold began?
  rw [Option.map_eq_some_iff]
  constructor
  · rintro ⟨⟨a, remote⟩, h, rfl⟩
    exact ⟨a, remote, h, rfl⟩
  · rintro ⟨a, remote, h, rfl⟩
    exact ⟨(a, remote), h, rfl⟩

/-- Only the end of a case is ever noted. -/
theorem closing_eq (r : Run) (e : Event) (c : Case) :
    ∃ ending, r.closing e c = { c with ending } := by
  unfold closing
  split
  · unfold Case.close
    split
    · exact ⟨_, rfl⟩
    · exact ⟨c.ending, rfl⟩
  · exact ⟨c.ending, rfl⟩

@[simp] theorem closing_analysis (r : Run) (e : Event) (c : Case) :
    (r.closing e c).analysis = c.analysis := by
  obtain ⟨_, h⟩ := closing_eq r e c
  rw [h]

@[simp] theorem closing_ticket (r : Run) (e : Event) (c : Case) :
    (r.closing e c).ticket = c.ticket := by
  obtain ⟨_, h⟩ := closing_eq r e c
  rw [h]

@[simp] theorem closing_begunAt (r : Run) (e : Event) (c : Case) :
    (r.closing e c).begunAt = c.begunAt := by
  obtain ⟨_, h⟩ := closing_eq r e c
  rw [h]

/-- A case stays as it is unless its own analysis is concluded. -/
theorem closing_of_ne (h : ∀ t x, r.watch.concluded? e = some (t, x) → c.ticket ≠ some t) :
    r.closing e c = c := by
  unfold closing
  split
  · rename_i t x hx
    unfold Case.close
    rw [if_neg (h t x hx)]
  · rfl

theorem closing_of_concluded {t : Nat} {x : Outcome} (h : r.watch.concluded? e = some (t, x))
    (hc : c.ticket = some t) : r.closing e c = { c with ending := some ⟨r.moment, x⟩ } := by
  unfold closing
  rw [h]
  dsimp only
  unfold Case.close
  rw [if_pos hc]

theorem closing_of_none (c : Case) (h : r.watch.concluded? e = none) : r.closing e c = c := by
  unfold closing
  rw [h]

/-- A case that has not ended after a step was not concluded in it. -/
theorem not_concluded_of_ending {t : Nat} {x : Outcome} (hc : c.ticket = some t)
    (h : (r.closing e c).ending = none) : r.watch.concluded? e ≠ some (t, x) := by
  intro hx
  rw [closing_of_concluded hx hc] at h
  cases h

theorem eq_of_closing_ending (h : (r.closing e c).ending = none) : r.closing e c = c :=
  closing_of_ne fun _ _ hx hc => not_concluded_of_ending hc h hx

end Run

/-! ## Cases and books -/

/-- The cases that are open are what is owed, ticket by ticket. -/
structure Docket (r : Run) : Prop where
  caseOfOwed : ∀ o ∈ r.watch.owed,
    ∃ c ∈ r.cases, c.ticket = some o.ticket ∧ c.analysis = o.analysis ∧ c.ending = none
  owedOfCase : ∀ c ∈ r.cases, ∀ t, c.ticket = some t → c.ending = none →
    ∃ o ∈ r.watch.owed, o.ticket = t ∧ o.analysis = c.analysis
  issued : ∀ c ∈ r.cases, ∀ t, c.ticket = some t → t < r.watch.queue.nextTicket
  past : ∀ c ∈ r.cases, c.begunAt < r.moment
  sorted : r.cases.Pairwise fun c d => d.begunAt < c.begunAt
  unique : ∀ c ∈ r.cases, ∀ d ∈ r.cases, ∀ t, c.ticket = some t → d.ticket = some t → c = d
  /-- What is superseded has a newer case of its document. -/
  superseded : ∀ o ∈ r.watch.owed, o.outcome = some (.error .superseded) →
    ∀ c ∈ r.cases, c.ticket = some o.ticket →
      ∃ d ∈ r.cases, d.document = c.document ∧ c.begunAt < d.begunAt

namespace Docket

theorem start (options : WatchOptions) (config : Fingerprint) (now : Duration) :
    Docket (.start options config now) where
  caseOfOwed := fun _ ho => absurd ho List.not_mem_nil
  owedOfCase := fun _ hc => absurd hc List.not_mem_nil
  issued := fun _ hc => absurd hc List.not_mem_nil
  past := fun _ hc => absurd hc List.not_mem_nil
  sorted := .nil
  unique := fun _ hc => absurd hc List.not_mem_nil
  superseded := fun _ ho => absurd ho List.not_mem_nil

theorem eq_analysis (h : Docket r) {o : Owed} (ho : o ∈ r.watch.owed) (hc : c ∈ r.cases)
    (hco : c.ticket = some o.ticket) : c.analysis = o.analysis ∧ c.ending = none := by
  obtain ⟨d, hd, hdo, hanalysis, hending⟩ := h.caseOfOwed o ho
  rw [h.unique c hc d hd _ hco hdo]
  exact ⟨hanalysis, hending⟩

theorem ticket_of_began {now : Duration} {e : Event} (hnew : r.began? now e = some c)
    {t : Nat} (ht : c.ticket = some t) :
    t = r.watch.queue.nextTicket := by
  obtain ⟨a, remote, ha, rfl⟩ := Run.began?_eq_some.mp hnew
  cases remote with
  | false => cases ht
  | true =>
    cases ht
    rfl

section Next

variable (h : Docket r) (now : Duration) (e : Event)

include h

theorem caseOfOwed_next (o' : Owed) (ho' : o' ∈ (r.next now e).watch.owed) :
    ∃ c ∈ (r.next now e).cases,
      c.ticket = some o'.ticket ∧ c.analysis = o'.analysis ∧ c.ending = none := by
  rcases (owedStep_step r now e).back o' ho' with
    ⟨a, ha, rfl⟩ | ⟨o, ho, hticket, hanalysis, hopen, -⟩
  · exact ⟨_, Run.mem_cases_next.mpr (.inl (Run.began?_eq_some.mpr ⟨a, true, ha, rfl⟩)),
      rfl, rfl, rfl⟩
  · obtain ⟨c, hc, hco, hca, hending⟩ := h.caseOfOwed o ho
    have hsame : r.closing e c = c := by
      refine Run.closing_of_ne fun t x hx hct => ?_
      rw [hco, Option.some.injEq] at hct
      exact hopen x (hct ▸ hx)
    exact ⟨c, Run.mem_cases_next.mpr (.inr ⟨c, hc, hsame⟩), hticket ▸ hco, hca.trans hanalysis,
      hending⟩

theorem owedOfCase_next (c : Case) (hc : c ∈ (r.next now e).cases) (t : Nat)
    (ht : c.ticket = some t) (hending : c.ending = none) :
    ∃ o ∈ (r.next now e).watch.owed, o.ticket = t ∧ o.analysis = c.analysis := by
  have hstep := owedStep_step r now e
  rcases Run.mem_cases_next.mp hc with hnew | ⟨d, hd, rfl⟩
  · obtain ⟨a, remote, ha, rfl⟩ := Run.began?_eq_some.mp hnew
    cases remote with
    | false => cases ht
    | true =>
      cases ht
      exact ⟨_, (hstep.new a ha).1, rfl, rfl⟩
  · have hopen := hending
    rw [Run.eq_of_closing_ending hopen] at ht hending ⊢
    obtain ⟨o, ho, hot, hoa⟩ := h.owedOfCase d hd t ht hending
    rcases hstep.on o ho with ⟨x, hx⟩ | ⟨o', ho', hticket, hanalysis⟩
    · exact absurd (hot ▸ hx) (Run.not_concluded_of_ending ht hopen)
    · exact ⟨o', ho', hticket.trans hot, hanalysis.trans hoa⟩

theorem issued_next (c : Case) (hc : c ∈ (r.next now e).cases) (t : Nat)
    (ht : c.ticket = some t) : t < (r.next now e).watch.queue.nextTicket := by
  have hstep := owedStep_step r now e
  have hmono : r.watch.queue.nextTicket ≤ (r.next now e).watch.queue.nextTicket := by
    by_cases hb : ∃ a, begun? (r.next now e).effects = some (a, true)
    · obtain ⟨a, ha⟩ := hb
      have := (hstep.new a ha).2
      omega
    · exact Nat.le_of_eq (hstep.counts (not_exists.mp hb)).symm
  rcases Run.mem_cases_next.mp hc with hnew | ⟨d, hd, rfl⟩
  · obtain ⟨a, remote, ha, rfl⟩ := Run.began?_eq_some.mp hnew
    cases remote with
    | false => cases ht
    | true =>
      cases ht
      have := (hstep.new a ha).2
      omega
  · rw [Run.closing_ticket] at ht
    have := h.issued d hd t ht
    omega

theorem past_next (c : Case) (hc : c ∈ (r.next now e).cases) :
    c.begunAt < (r.next now e).moment := by
  show c.begunAt < r.moment + 1
  rcases Run.mem_cases_next.mp hc with hnew | ⟨d, hd, rfl⟩
  · obtain ⟨a, remote, ha, rfl⟩ := Run.began?_eq_some.mp hnew
    exact Nat.lt_succ_self _
  · have := h.past d hd
    rw [Run.closing_begunAt]
    omega

theorem sorted_next : (r.next now e).cases.Pairwise fun c d => d.begunAt < c.begunAt := by
  refine List.pairwise_append.mpr ⟨?_, ?_, ?_⟩
  · cases r.began? now e with
    | none => exact .nil
    | some c => exact List.pairwise_singleton _ _
  · refine List.Pairwise.map _ (fun c d hcd => ?_) h.sorted
    rw [Run.closing_begunAt, Run.closing_begunAt]
    exact hcd
  · intro c hc d hd
    obtain ⟨a, remote, ha, rfl⟩ := Run.began?_eq_some.mp (Option.mem_toList.mp hc)
    obtain ⟨d₀, hd₀, rfl⟩ := List.mem_map.mp hd
    rw [Run.closing_begunAt]
    exact h.past d₀ hd₀

theorem unique_next (c : Case) (hc : c ∈ (r.next now e).cases) (d : Case)
    (hd : d ∈ (r.next now e).cases) (t : Nat) (hct : c.ticket = some t)
    (hdt : d.ticket = some t) : c = d := by
  rcases Run.mem_cases_next.mp hc with hc | ⟨c₀, hc₀, rfl⟩
  · rcases Run.mem_cases_next.mp hd with hd | ⟨d₀, hd₀, rfl⟩
    · exact Option.some.inj (hc.symm.trans hd)
    · have hnext := ticket_of_began hc hct
      have := h.issued d₀ hd₀ t (by simpa using hdt)
      omega
  · rcases Run.mem_cases_next.mp hd with hd | ⟨d₀, hd₀, rfl⟩
    · have hnext := ticket_of_began hd hdt
      have := h.issued c₀ hc₀ t (by simpa using hct)
      omega
    · rw [h.unique c₀ hc₀ d₀ hd₀ t (by simpa using hct) (by simpa using hdt)]

theorem superseded_next (o' : Owed) (ho' : o' ∈ (r.next now e).watch.owed)
    (hsup : o'.outcome = some (.error .superseded)) (c : Case)
    (hc : c ∈ (r.next now e).cases) (hct : c.ticket = some o'.ticket) :
    ∃ d ∈ (r.next now e).cases, d.document = c.document ∧ c.begunAt < d.begunAt := by
  rcases (owedStep_step r now e).back o' ho' with
    ⟨a, ha, rfl⟩ | ⟨o, ho, hticket, hanalysis, hopen, hwhy⟩
  · cases hsup
  · rcases Run.mem_cases_next.mp hc with hnew | ⟨c₀, hc₀, rfl⟩
    · have hnext := ticket_of_began hnew hct
      have := r.accounts.issued o ho
      omega
    · rw [Run.closing_ticket, ← hticket] at hct
      rcases hwhy hsup with hsup | ⟨a, ha, hdoc⟩
      · obtain ⟨d, hd, hdc, hlt⟩ := h.superseded o ho hsup c₀ hc₀ hct
        refine ⟨_, Run.mem_cases_next.mpr (.inr ⟨d, hd, rfl⟩), ?_, ?_⟩
        · simpa [Case.document] using hdc
        · simpa using hlt
      · refine ⟨_, Run.mem_cases_next.mpr (.inl (Run.began?_eq_some.mpr ⟨a, true, ha, rfl⟩)),
          ?_, ?_⟩
        · simp only [Case.document, Run.closing_analysis]
          rw [hdoc, (h.eq_analysis ho hc₀ hct).1]
        · rw [Run.closing_begunAt]
          exact h.past c₀ hc₀

end Next

end Docket

/-- At the end of every run the open cases are what is owed. -/
theorem Run.docket (r : Run) : Docket r := by
  induction r with
  | start options config now => exact .start options config now
  | next r now e ih =>
    exact ⟨ih.caseOfOwed_next now e, ih.owedOfCase_next now e, ih.issued_next now e,
      ih.past_next now e, ih.sorted_next now e, ih.unique_next now e, ih.superseded_next now e⟩

/-! ## What can be read off a case -/

namespace Run

theorem isUnderWay_iff (hc : c ∈ r.cases) : c.IsUnderWay r.watch ↔ c.IsOpen := by
  unfold Case.IsUnderWay Case.IsOpen
  constructor
  · rintro ⟨t, ht, hway⟩
    obtain ⟨o, ho, rfl⟩ := (r.isUnderWay_iff_owed t).mp hway
    exact ⟨by rw [ht]; rfl, (r.docket.eq_analysis ho hc ht).2⟩
  · rintro ⟨hsome, hending⟩
    obtain ⟨t, ht⟩ := Option.isSome_iff_exists.mp hsome
    obtain ⟨o, ho, hot, -⟩ := r.docket.owedOfCase c hc t ht hending
    exact ⟨t, ht, (r.isUnderWay_iff_owed t).mpr ⟨o, ho, hot⟩⟩

theorem caseOf?_eq_some {t : Nat} (hc : c ∈ r.cases) (ht : c.ticket = some t) :
    r.caseOf? t = some c := by
  unfold caseOf?
  cases hf : r.cases.find? (·.ticket = some t) with
  | none =>
    rw [List.find?_eq_none] at hf
    exact absurd (decide_eq_true ht) (hf c hc)
  | some d =>
    have hd : d.ticket = some t := by simpa using List.find?_some hf
    rw [r.docket.unique d (List.mem_of_find?_eq_some hf) c hc t hd ht]

theorem caseOf?_of_owed {o : Owed} (ho : o ∈ r.watch.owed) :
    ∃ c, r.caseOf? o.ticket = some c ∧ c.analysis = o.analysis := by
  obtain ⟨c, hc, hticket, hanalysis, -⟩ := r.docket.caseOfOwed o ho
  exact ⟨c, caseOf?_eq_some hc hticket, hanalysis⟩

end Run

end Watch

end SmellWatch
