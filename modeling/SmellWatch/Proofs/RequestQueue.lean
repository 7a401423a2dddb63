import Mathlib.Data.List.Nodup
import SmellWatch.RequestQueue
/-! Requests of a queue and their tickets.

The requests that run or wait are told by their tickets, in order (`tickets`).  In an
orderly queue (`Orderly`) they stand in the order in which they came, and somebody waits
for each.  What the operations do is one thing (`Settling`): some requests stay, in
their order, and exactly the others are settled.  `turn_spec`, `cancelWhere_spec` and
`settling_evicted` say so for each of them. -/

namespace SmellWatch

namespace RequestQueue

variable {α β ε : Type} {q q₁ q₂ : RequestQueue α β ε} {now : Duration} {key : DocumentId}

/-- The tickets of the requests that are not settled: of the one that runs, then of
those that wait. -/
def tickets (q : RequestQueue α β ε) : List Nat :=
  (q.running.map (·.ticket)).toList ++ q.waiting.map (·.ticket)

theorem mem_tickets {t : Nat} :
    t ∈ q.tickets ↔ (∃ x, q.running = some x ∧ x.ticket = t) ∨ ∃ x ∈ q.waiting, x.ticket = t := by
  unfold tickets
  simp

/-- Requests stand in the order in which they came. -/
structure InLine (q : RequestQueue α β ε) : Prop where
  sorted : q.tickets.Pairwise (· < ·)
  issued : ∀ t ∈ q.tickets, t < q.nextTicket

namespace InLine

theorem of_sublist {q' : RequestQueue α β ε} (h : q.InLine) (hsub : q'.tickets.Sublist q.tickets)
    (hnext : q'.nextTicket = q.nextTicket) : q'.InLine where
  sorted := h.sorted.sublist hsub
  issued := fun t ht => hnext ▸ h.issued t (hsub.subset ht)

/-- Two requests that wait with one ticket are the same. -/
theorem waiting_inj (h : q.InLine) {x y : Waiting α} (hx : x ∈ q.waiting) (hy : y ∈ q.waiting)
    (hxy : x.ticket = y.ticket) : x = y := by
  have hsort : (q.waiting.map (·.ticket)).Pairwise (· < ·) :=
    (List.pairwise_append.mp h.sorted).2.1
  exact List.inj_on_of_nodup_map (hsort.imp fun hlt => Nat.ne_of_lt hlt) hx hy hxy

/-- The request that runs came before those that wait. -/
theorem running_lt_waiting (h : q.InLine) {x : Running β ε} {y : Waiting α}
    (hx : q.running = some x) (hy : y ∈ q.waiting) : x.ticket < y.ticket := by
  have hsort := (List.pairwise_append.mp h.sorted).2.2
  exact hsort x.ticket (by simp [hx]) y.ticket (List.mem_map_of_mem hy)

end InLine

/-- Requests stand in the order in which they came, and somebody waits for each. -/
structure Orderly (q : RequestQueue α β ε) : Prop where
  sorted : q.tickets.Pairwise (· < ·)
  issued : ∀ t ∈ q.tickets, t < q.nextTicket
  waitingHeeded : ∀ x ∈ q.waiting, x.abandoned = false
  runningHeeded : ∀ x, q.running = some x → x.abandoned = false

theorem Orderly.inLine (h : q.Orderly) : q.InLine := ⟨h.sorted, h.issued⟩

/-- A queue that keeps some requests, and has no new ones, is as orderly as it was. -/
theorem Orderly.of_sublist {q' : RequestQueue α β ε} (h : q.Orderly)
    (hsub : q'.tickets.Sublist q.tickets) (hnext : q'.nextTicket = q.nextTicket)
    (hwaiting : ∀ x ∈ q'.waiting, x ∈ q.waiting)
    (hrunning : ∀ x, q'.running = some x → x.abandoned = false) : q'.Orderly where
  sorted := (h.inLine.of_sublist hsub hnext).sorted
  issued := (h.inLine.of_sublist hsub hnext).issued
  waitingHeeded := fun x hx => h.waitingHeeded x (hwaiting x hx)
  runningHeeded := hrunning

/-- Of two requests in an orderly queue with one ticket, both are the same. -/
theorem Orderly.waiting_inj (h : q.Orderly) {x y : Waiting α} (hx : x ∈ q.waiting)
    (hy : y ∈ q.waiting) (hxy : x.ticket = y.ticket) : x = y :=
  h.inLine.waiting_inj hx hy hxy

/-- The request that runs has a ticket of its own. -/
theorem Orderly.running_ne_waiting (h : q.Orderly) {x : Running β ε} {y : Waiting α}
    (hx : q.running = some x) (hy : y ∈ q.waiting) : x.ticket ≠ y.ticket :=
  Nat.ne_of_lt (h.inLine.running_lt_waiting hx hy)

/-- Some requests stay in their order, and exactly the others are settled. -/
structure Settling (q : RequestQueue α β ε) (settled : List (Settled β ε))
    (q' : RequestQueue α β ε) : Prop where
  stay : q'.tickets.Sublist q.tickets
  go : ∀ t ∈ q.tickets, t ∈ q'.tickets ∨ ∃ s ∈ settled, s.ticket = t
  gone : ∀ s ∈ settled, s.ticket ∈ q.tickets ∧ s.ticket ∉ q'.tickets
  waits : ∀ x ∈ q'.waiting, x ∈ q.waiting
  counts : q'.nextTicket = q.nextTicket
  heeds : ∀ x, q'.running = some x → x.abandoned = false

theorem Settling.refl (h : q.Orderly) : Settling q [] q where
  stay := .refl _
  go := fun _ ht => .inl ht
  gone := by simp
  waits := fun _ hx => hx
  counts := rfl
  heeds := h.runningHeeded

theorem Settling.trans {s₁ s₂ : List (Settled β ε)} {q₃ : RequestQueue α β ε}
    (h : Settling q s₁ q₂) (k : Settling q₂ s₂ q₃) : Settling q (s₁ ++ s₂) q₃ where
  stay := k.stay.trans h.stay
  go := by
    intro t ht
    rcases h.go t ht with ht | ⟨s, hs, rfl⟩
    · rcases k.go t ht with ht | ⟨s, hs, rfl⟩
      · exact .inl ht
      · exact .inr ⟨s, List.mem_append_right _ hs, rfl⟩
    · exact .inr ⟨s, List.mem_append_left _ hs, rfl⟩
  gone := by
    intro s hs
    rcases List.mem_append.mp hs with hs | hs
    · obtain ⟨hmem, hnot⟩ := h.gone s hs
      exact ⟨hmem, fun hin => hnot (k.stay.subset hin)⟩
    · obtain ⟨hmem, hnot⟩ := k.gone s hs
      exact ⟨h.stay.subset hmem, hnot⟩
  waits := fun x hx => h.waits x (k.waits x hx)
  counts := k.counts.trans h.counts
  heeds := k.heeds

theorem Settling.orderly {settled : List (Settled β ε)} (k : Settling q settled q₂)
    (h : q.Orderly) : q₂.Orderly :=
  h.of_sublist k.stay k.counts k.waits k.heeds

/-! ## The request that runs -/

/-- What runs in the second queue runs in the first, and is as far there; if it was told
to stop there, it is so here. -/
def RunsOn (q q' : RequestQueue α β ε) : Prop :=
  ∀ x', q'.running = some x' →
    ∃ x, q.running = some x ∧ x.ticket = x'.ticket ∧ x.ended = x'.ended ∧ x.key = x'.key ∧
      (x.canceled = true → x'.canceled = true)

theorem RunsOn.of_eq (h : q₂.running = q₁.running) : RunsOn q₁ q₂ := by
  intro x hx
  rw [h] at hx
  exact ⟨x, hx, rfl, rfl, rfl, id⟩

theorem RunsOn.trans {q₃ : RequestQueue α β ε} (h : RunsOn q₁ q₂) (k : RunsOn q₂ q₃) :
    RunsOn q₁ q₃ := by
  intro z hz
  obtain ⟨y, hy, hyz, hyended, hykey, hystops⟩ := k z hz
  obtain ⟨x, hx, hxy, hxended, hxkey, hxstops⟩ := h y hy
  exact ⟨x, hx, hxy.trans hyz, hxended.trans hyended, hxkey.trans hykey,
    fun hstop => hystops (hxstops hstop)⟩

/-- A request that is told to stop runs on. -/
theorem RunsOn.cancelWhere (wanted : DocumentId → Bool) (q : RequestQueue α β ε) :
    RunsOn q (q.cancelWhere wanted).queue := by
  intro x hx
  obtain ⟨y, hy, rfl⟩ := Option.map_eq_some_iff.mp hx
  refine ⟨y, hy, ?_⟩
  split
  · exact ⟨rfl, rfl, rfl, fun _ => rfl⟩
  · exact ⟨rfl, rfl, rfl, id⟩

/-! ## Requests that wait and go -/

/-- Those that wait are settled where `reason` says so. -/
def evict (reason : Waiting α → Option (QueueError ε)) (q : RequestQueue α β ε) :
    RequestQueue α β ε :=
  { q with waiting := q.waiting.filter fun x => (reason x).isNone }

/-- What the eviction of requests settles. -/
def evicted (reason : Waiting α → Option (QueueError ε)) (q : RequestQueue α β ε) :
    List (Settled β ε) :=
  q.waiting.filterMap fun x => (reason x).bind (reject · x)

theorem mem_evicted (h : q.Orderly) {reason : Waiting α → Option (QueueError ε)}
    {s : Settled β ε} :
    s ∈ q.evicted reason ↔
      ∃ x ∈ q.waiting, ∃ e, reason x = some e ∧ s = ⟨x.ticket, .error e⟩ := by
  unfold evicted
  rw [List.mem_filterMap]
  constructor
  · rintro ⟨x, hx, hs⟩
    obtain ⟨e, he, hr⟩ := Option.bind_eq_some_iff.mp hs
    rw [reject, h.waitingHeeded x hx] at hr
    exact ⟨x, hx, e, he, by simpa using hr.symm⟩
  · rintro ⟨x, hx, e, he, rfl⟩
    refine ⟨x, hx, ?_⟩
    rw [he, Option.bind_some, reject, h.waitingHeeded x hx]
    rfl

theorem settling_evicted (h : q.Orderly) (reason : Waiting α → Option (QueueError ε)) :
    Settling q (q.evicted reason) (q.evict reason) where
  stay := List.Sublist.append_left (List.filter_sublist.map _) _
  go := by
    intro t ht
    rw [mem_tickets] at ht ⊢
    rcases ht with hrun | ⟨x, hx, rfl⟩
    · exact .inl (.inl hrun)
    · cases hr : reason x with
      | none => exact .inl (.inr ⟨x, List.mem_filter.mpr ⟨hx, by rw [hr]; rfl⟩, rfl⟩)
      | some e => exact .inr ⟨_, (mem_evicted h).mpr ⟨x, hx, e, hr, rfl⟩, rfl⟩
  gone := by
    intro s hs
    obtain ⟨x, hx, e, he, rfl⟩ := (mem_evicted h).mp hs
    refine ⟨mem_tickets.mpr (.inr ⟨x, hx, rfl⟩), fun hin => ?_⟩
    rcases mem_tickets.mp hin with ⟨y, hy, hyx⟩ | ⟨y, hy, hyx⟩
    · exact h.running_ne_waiting hy hx hyx
    · obtain ⟨hyin, hkept⟩ := List.mem_filter.mp hy
      have := h.waiting_inj hyin hx hyx
      subst this
      rw [he] at hkept
      cases hkept
  waits := fun _ hx => (List.mem_filter.mp hx).1
  counts := rfl
  heeds := h.runningHeeded

/-! ## A new request -/

/-- A request comes last. -/
def push (x : Waiting α) (q : RequestQueue α β ε) : RequestQueue α β ε :=
  { q with waiting := q.waiting ++ [x], working := true, nextTicket := q.nextTicket + 1 }

theorem tickets_push (x : Waiting α) (q : RequestQueue α β ε) :
    (q.push x).tickets = q.tickets ++ [x.ticket] := by
  unfold push tickets
  simp

theorem InLine.push (h : q.InLine) {x : Waiting α} (hx : x.ticket = q.nextTicket) :
    (q.push x).InLine where
  sorted := by
    rw [tickets_push]
    refine List.pairwise_append.mpr ⟨h.sorted, List.pairwise_singleton _ _, ?_⟩
    intro t ht u hu
    rw [List.mem_singleton.mp hu, hx]
    exact h.issued t ht
  issued := by
    intro t ht
    show t < q.nextTicket + 1
    rw [tickets_push] at ht
    rcases List.mem_append.mp ht with ht | ht
    · have := h.issued t ht
      omega
    · rw [List.mem_singleton.mp ht]
      omega

theorem Orderly.push (h : q.Orderly) {x : Waiting α} (hx : x.ticket = q.nextTicket)
    (hheeded : x.abandoned = false) : (q.push x).Orderly where
  sorted := (h.inLine.push hx).sorted
  issued := (h.inLine.push hx).issued
  waitingHeeded := by
    intro y hy
    rcases List.mem_append.mp hy with hy | hy
    · exact h.waitingHeeded y hy
    · rw [List.mem_singleton.mp hy]
      exact hheeded
  runningHeeded := h.runningHeeded

theorem enqueue_settled (now : Duration) (key : DocumentId) (work : α) (q : RequestQueue α β ε) :
    (q.enqueue now key work).settled = q.evicted (q.eviction? now key) := rfl

/-- A request that comes stands behind those that it leaves in the queue. -/
theorem enqueue_queue (now : Duration) (key : DocumentId) (work : α) (q : RequestQueue α β ε) :
    (q.enqueue now key work).queue =
      (q.evict (q.eviction? now key)).push ⟨q.nextTicket, key, work, now, false⟩ := rfl

/-- What a new request supersedes is about the same document. -/
theorem key_of_superseded (h : q.Orderly) {work : α} {s : Settled β ε}
    (hs : s ∈ (q.enqueue now key work).settled) (hsup : s.result = .error .superseded) :
    ∃ x ∈ q.waiting, x.ticket = s.ticket ∧ x.key = key := by
  rw [enqueue_settled, mem_evicted h] at hs
  obtain ⟨x, hx, e, he, rfl⟩ := hs
  refine ⟨x, hx, rfl, ?_⟩
  unfold eviction? at he
  split at he
  · assumption
  · split at he
    · cases he
      cases hsup
    · cases he

/-! ## Turns of the worker -/

theorem settling_reap (h : q.Orderly) : Settling q q.reap.2 q.reap.1 := by
  unfold reap
  cases hr : q.running with
  | none => exact .refl h
  | some x =>
    dsimp only
    cases he : x.ended with
    | none => exact .refl h
    | some e =>
      dsimp only
      rw [h.runningHeeded x hr]
      refine ⟨List.sublist_append_right _ _, ?_, ?_, fun _ hy => hy, rfl, fun _ hy => nomatch hy⟩
      · intro t ht
        rcases mem_tickets.mp ht with ⟨y, hy, rfl⟩ | hw
        · rw [hr] at hy
          cases hy
          exact .inr ⟨_, List.mem_singleton_self _, rfl⟩
        · exact .inl (mem_tickets.mpr (.inr hw))
      · intro s hs
        have hs : s = ⟨x.ticket, x.result e⟩ := by simpa using hs
        subst hs
        refine ⟨mem_tickets.mpr (.inl ⟨x, hr, rfl⟩), fun hin => ?_⟩
        rcases mem_tickets.mp hin with ⟨y, hy, -⟩ | ⟨y, hy, hyx⟩
        · cases hy
        · exact h.running_ne_waiting hr hy hyx.symm

theorem result_ne_superseded (e : WorkEnd β ε) (x : Running β ε) :
    x.result e ≠ .error .superseded := by
  unfold Running.result
  split
  · simp
  · split <;> simp

theorem reap_ne_superseded (q : RequestQueue α β ε) :
    ∀ s ∈ q.reap.2, s.result ≠ .error .superseded := by
  unfold reap
  cases hr : q.running with
  | none => simp
  | some x =>
    dsimp only
    cases he : x.ended with
    | none => simp
    | some e =>
      intro s hs
      dsimp only at hs
      split at hs
      · exact absurd hs List.not_mem_nil
      · rw [List.mem_singleton.mp hs]
        exact result_ne_superseded e x

/-- The search for the first request that may run splits those that wait: it passes over
those that nobody waits for and those that have waited too long, which are settled so. -/
theorem firstRunnable_splits (q : RequestQueue α β ε) (now : Duration) (l : List (Waiting α)) :
    ∃ passed, (q.firstRunnable now l).1 = passed.filterMap (reject .timedOut) ∧
      (∀ x ∈ passed, x.abandoned = true ∨ q.isTooOld now x = true) ∧
      (∀ p, (q.firstRunnable now l).2 = some p →
        p.1.abandoned = false ∧ q.isTooOld now p.1 = false) ∧
      l = passed ++ ((q.firstRunnable now l).2.map fun p => p.1 :: p.2).getD [] := by
  induction l with
  | nil => exact ⟨[], rfl, by simp, by simp [firstRunnable], rfl⟩
  | cons x r ih =>
    obtain ⟨passed, hsettled, hpassed, hfound, hsplit⟩ := ih
    unfold firstRunnable
    by_cases ha : x.abandoned = true
    · rw [if_pos ha]
      refine ⟨x :: passed, ?_, ?_, hfound, ?_⟩
      · simp [hsettled, reject, ha]
      · simpa [ha] using hpassed
      · rw [List.cons_append, ← hsplit]
    · rw [if_neg ha]
      by_cases ht : q.isTooOld now x = true
      · rw [if_pos ht]
        refine ⟨x :: passed, ?_, ?_, hfound, ?_⟩
        · simp [hsettled, reject, ha]
        · simpa [ht] using hpassed
        · rw [List.cons_append, ← hsplit]
      · rw [if_neg ht]
        refine ⟨[], rfl, by simp, ?_, rfl⟩
        intro p hp
        cases hp
        simpa using And.intro ha ht

/-- Where somebody waits for each request, those that are passed over are settled. -/
theorem firstRunnable_eq (q : RequestQueue α β ε) (now : Duration) (l : List (Waiting α))
    (h : ∀ x ∈ l, x.abandoned = false) :
    ∃ old, (q.firstRunnable now l).1 = old.map (fun x => ⟨x.ticket, .error .timedOut⟩) ∧
      l = old ++ ((q.firstRunnable now l).2.map fun p => p.1 :: p.2).getD [] := by
  obtain ⟨old, hsettled, -, -, hsplit⟩ := firstRunnable_splits q now l
  refine ⟨old, ?_, hsplit⟩
  rw [hsettled, ← List.filterMap_eq_map]
  apply List.filterMap_congr
  intro x hx
  have hheeded := h x (hsplit ▸ List.mem_append_left _ hx)
  simp [reject, hheeded]

theorem tickets_of_idle (h : q.running = none) : q.tickets = q.waiting.map (·.ticket) := by
  unfold tickets
  rw [h]
  rfl

/-- Starting the next request settles those before it, which have waited too long. -/
theorem startNext_spec (h : q.Orderly) (hidle : q.running = none) (now : Duration) :
    Settling q (q.startNext now).2.1 (q.startNext now).1 ∧
      ∀ s ∈ (q.startNext now).2.1, s.result = .error .timedOut := by
  obtain ⟨old, hold, hsplit⟩ := firstRunnable_eq q now q.waiting h.waitingHeeded
  have hsort := h.sorted
  rw [tickets_of_idle hidle, hsplit, List.map_append] at hsort
  have hdisjoint := (List.pairwise_append.mp hsort).2.2
  rcases hf : q.firstRunnable now q.waiting with ⟨settled, found⟩
  rw [hf] at hold hsplit hdisjoint
  dsimp only at hold hsplit hdisjoint
  -- whichever way the worker goes on, the tickets that remain are those behind the old ones
  have hsettling : ∀ q' : RequestQueue α β ε,
      q'.tickets = ((found.map fun p => p.1 :: p.2).getD []).map (·.ticket) →
      (∀ x ∈ q'.waiting, x ∈ q.waiting) → q'.nextTicket = q.nextTicket →
      (∀ x, q'.running = some x → x.abandoned = false) → Settling q settled q' := by
    intro q' hq' hwaits hcounts hheeds
    have hq : q.tickets = old.map (·.ticket) ++ q'.tickets := by
      rw [tickets_of_idle hidle, hq', ← List.map_append, ← hsplit]
    refine ⟨hq ▸ List.sublist_append_right _ _, fun t ht => ?_, fun s hs => ?_, hwaits, hcounts,
      hheeds⟩
    · rw [hq] at ht
      rcases List.mem_append.mp ht with ht | ht
      · obtain ⟨x, hx, rfl⟩ := List.mem_map.mp ht
        exact .inr ⟨_, hold ▸ List.mem_map_of_mem hx, rfl⟩
      · exact .inl ht
    · rw [hold] at hs
      obtain ⟨x, hx, rfl⟩ := List.mem_map.mp hs
      refine ⟨hq ▸ List.mem_append_left _ (List.mem_map_of_mem hx), fun hin => ?_⟩
      rw [hq'] at hin
      have := hdisjoint x.ticket (List.mem_map_of_mem hx) x.ticket hin
      omega
  have htimed : ∀ s ∈ settled, s.result = .error .timedOut := by
    intro s hs
    rw [hold] at hs
    obtain ⟨x, -, rfl⟩ := List.mem_map.mp hs
    rfl
  unfold startNext
  rw [hf]
  cases found with
  | none =>
    refine ⟨hsettling _ (tickets_of_idle hidle) ?_ rfl h.runningHeeded, htimed⟩
    intro x hx
    exact absurd hx List.not_mem_nil
  | some p =>
    obtain ⟨x, rest⟩ := p
    refine ⟨hsettling _ rfl ?_ rfl ?_, htimed⟩
    · intro y hy
      rw [hsplit]
      exact List.mem_append_right _ (List.mem_cons_of_mem _ hy)
    · intro y hy
      cases hy
      rfl

/-- A turn settles some requests, none of them as superseded. -/
theorem turn_spec (h : q.Orderly) (now : Duration) :
    Settling q (q.turn now).2.1 (q.turn now).1 ∧
      ∀ s ∈ (q.turn now).2.1, s.result ≠ .error .superseded := by
  have hreap := settling_reap h
  have hreason := reap_ne_superseded q
  rcases hq : q.reap with ⟨q₁, settled⟩
  rw [hq] at hreap hreason
  dsimp only at hreap hreason
  unfold turn
  rw [hq]
  cases hr : q₁.running with
  | some x =>
    simp only [hr]
    exact ⟨hreap, hreason⟩
  | none =>
    obtain ⟨hnext, htimed⟩ := startNext_spec (hreap.orderly h) hr now
    simp only [hr]
    refine ⟨hreap.trans hnext, fun s hs => ?_⟩
    rcases List.mem_append.mp hs with hs | hs
    · exact hreason s hs
    · rw [htimed s hs]
      simp

theorem reap_running {x : Running β ε} (h : q.reap.1.running = some x) : q.running = some x := by
  unfold reap at h
  cases hr : q.running with
  | none => simp [hr] at h
  | some y =>
    cases he : y.ended <;> simp [hr, he] at h
    rw [h]

theorem reap_waiting (q : RequestQueue α β ε) : q.reap.1.waiting = q.waiting := by
  unfold reap
  split
  · rfl
  · split <;> rfl

/-- After a turn runs what ran before, or a request that waited and has just started. -/
theorem turn_running (h : q.Orderly) (now : Duration) {x : Running β ε}
    (hx : (q.turn now).1.running = some x) :
    ((q.turn now).2.2 = none ∧ q.running = some x) ∨
      ∃ y ∈ q.waiting, (q.turn now).2.2 = some y ∧ x.ticket = y.ticket ∧ x.ended = none ∧
        x.key = y.key := by
  have hreap := settling_reap h
  have hran := fun z => reap_running (q := q) (x := z)
  have hwaiting := reap_waiting q
  rcases hq : q.reap with ⟨q₁, settled⟩
  rw [hq] at hreap hran hwaiting
  dsimp only at hreap hran hwaiting
  unfold turn at hx ⊢
  rw [hq] at hx ⊢
  cases hr : q₁.running with
  | some y =>
    simp only [hr] at hx ⊢
    cases hx
    exact .inl ⟨trivial, hran _ hr⟩
  | none =>
    simp only [hr] at hx ⊢
    obtain ⟨old, -, hsplit⟩ := firstRunnable_eq q₁ now q₁.waiting (hreap.orderly h).waitingHeeded
    unfold startNext at hx ⊢
    rcases hf : q₁.firstRunnable now q₁.waiting with ⟨more, found⟩
    rw [hf] at hx hsplit
    cases found with
    | none =>
      change q₁.running = some x at hx
      rw [hr] at hx
      cases hx
    | some p =>
      obtain ⟨y, rest⟩ := p
      cases hx
      refine .inr ⟨y, ?_, rfl, rfl, rfl, rfl⟩
      rw [← hwaiting, hsplit]
      exact List.mem_append_right _ List.mem_cons_self

/-! ## What comes of a request whose work returned -/

/-- The result of a request whose work returned, if it was not canceled. -/
def ofReturn : Except ε β → Except (QueueError ε) β
  | .ok x => .ok x
  | .error e => .error (.failed e)

theorem ofReturn_of_result {e : WorkEnd β ε} {x : Running β ε} {y : Except ε β}
    (h : x.result e = ofReturn y) : e = .returned y := by
  unfold Running.result at h
  split at h
  · cases y <;> cases h
  · cases e with
    | panicked => cases y <;> cases h
    | returned z =>
      cases z <;> cases y <;> cases h <;> rfl

theorem ofReturn_of_reap {s : Settled β ε} {y : Except ε β} (hs : s ∈ q.reap.2)
    (h : s.result = ofReturn y) :
    ∃ x, q.running = some x ∧ x.ticket = s.ticket ∧ x.ended = some (.returned y) := by
  unfold reap at hs
  cases hr : q.running with
  | none => simp [hr] at hs
  | some x =>
    cases he : x.ended with
    | none => simp [hr, he] at hs
    | some e =>
      simp only [hr, he] at hs
      split at hs
      · exact absurd hs List.not_mem_nil
      · rw [List.mem_singleton.mp hs] at h ⊢
        exact ⟨x, rfl, rfl, by rw [he, ofReturn_of_result h]⟩

/-- Only the end of the work of the running request is settled so in a turn. -/
theorem ofReturn_of_turn (h : q.Orderly) {s : Settled β ε} {y : Except ε β}
    (hs : s ∈ (q.turn now).2.1) (hy : s.result = ofReturn y) :
    ∃ x, q.running = some x ∧ x.ticket = s.ticket ∧ x.ended = some (.returned y) := by
  have hreap := settling_reap h
  have hdone : s ∈ q.reap.2 →
      ∃ x, q.running = some x ∧ x.ticket = s.ticket ∧ x.ended = some (.returned y) :=
    fun hin => ofReturn_of_reap hin hy
  rcases hq : q.reap with ⟨q₁, settled⟩
  rw [hq] at hreap hdone
  dsimp only at hreap hdone
  unfold turn at hs
  rw [hq] at hs
  cases hr : q₁.running with
  | some x =>
    simp only [hr] at hs
    exact hdone hs
  | none =>
    simp only [hr] at hs
    rcases List.mem_append.mp hs with hs | hs
    · exact hdone hs
    · rw [(startNext_spec (hreap.orderly h) hr now).2 s hs] at hy
      cases y <;> cases hy

/-- The eviction of requests settles none so, unless its reason is a failure. -/
theorem not_ofReturn_of_evicted (h : q.Orderly) {reason : Waiting α → Option (QueueError ε)}
    (hreason : ∀ x z, reason x ≠ some (.failed z)) {s : Settled β ε} {y : Except ε β}
    (hs : s ∈ q.evicted reason) : s.result ≠ ofReturn y := by
  obtain ⟨x, -, e, he, rfl⟩ := (mem_evicted h).mp hs
  intro hy
  cases y with
  | ok z => cases hy
  | error z =>
    cases hy
    exact hreason x z he

theorem not_ofReturn_of_enqueue (h : q.Orderly) {work : α} {s : Settled β ε} {y : Except ε β}
    (hs : s ∈ (q.enqueue now key work).settled) : s.result ≠ ofReturn y := by
  rw [enqueue_settled] at hs
  refine not_ofReturn_of_evicted h (fun x z => ?_) hs
  unfold eviction?
  split
  · simp
  · split <;> simp

/-! ## Canceling -/

/-- Why a request that waits goes when some documents are canceled. -/
def cancellation? (wanted : DocumentId → Bool) (x : Waiting α) : Option (QueueError ε) :=
  if wanted x.key then some .canceled else none

theorem cancelWhere_settled (wanted : DocumentId → Bool) (q : RequestQueue α β ε) :
    (q.cancelWhere wanted).settled = q.evicted (cancellation? wanted) := by
  unfold cancelWhere evicted cancellation?
  dsimp only
  rw [List.filterMap_filter]
  refine List.filterMap_congr fun x _ => ?_
  cases wanted x.key <;> rfl

theorem cancelWhere_waiting (wanted : DocumentId → Bool) (q : RequestQueue α β ε) :
    (q.cancelWhere wanted).queue.waiting = (q.evict (cancellation? wanted)).waiting := by
  unfold cancelWhere evict cancellation?
  dsimp only
  refine List.filter_congr fun x _ => ?_
  cases wanted x.key <;> rfl

/-- The request that runs is told, and keeps its ticket. -/
theorem cancelWhere_tickets (wanted : DocumentId → Bool) (q : RequestQueue α β ε) :
    (q.cancelWhere wanted).queue.tickets = (q.evict (cancellation? wanted)).tickets := by
  unfold tickets
  rw [cancelWhere_waiting]
  unfold cancelWhere evict
  cases hr : q.running with
  | none => rfl
  | some x => simp [apply_ite]

theorem not_ofReturn_of_cancelWhere (h : q.Orderly) {wanted : DocumentId → Bool}
    {s : Settled β ε} {y : Except ε β} (hs : s ∈ (q.cancelWhere wanted).settled) :
    s.result ≠ ofReturn y := by
  rw [cancelWhere_settled] at hs
  refine not_ofReturn_of_evicted h (fun x z => ?_) hs
  unfold cancellation?
  split <;> simp

theorem cancelWhere_spec (h : q.Orderly) (wanted : DocumentId → Bool) :
    Settling q (q.cancelWhere wanted).settled (q.cancelWhere wanted).queue ∧
      ∀ s ∈ (q.cancelWhere wanted).settled, s.result ≠ .error .superseded := by
  have hset := settling_evicted h (cancellation? wanted)
  rw [← cancelWhere_settled] at hset
  refine ⟨⟨?_, ?_, ?_, ?_, rfl, ?_⟩, ?_⟩
  · rw [cancelWhere_tickets]
    exact hset.stay
  · rw [cancelWhere_tickets]
    exact hset.go
  · rw [cancelWhere_tickets]
    exact hset.gone
  · rw [cancelWhere_waiting]
    exact hset.waits
  · intro x hx
    obtain ⟨y, hy, rfl⟩ := Option.map_eq_some_iff.mp hx
    have := h.runningHeeded y hy
    split <;> exact this
  · intro s hs
    rw [cancelWhere_settled, mem_evicted h] at hs
    obtain ⟨x, -, e, he, rfl⟩ := hs
    unfold cancellation? at he
    split at he
    · cases he
      simp
    · cases he

/-! ## The end of work -/

theorem finish_tickets (x : WorkEnd β ε) (q : RequestQueue α β ε) :
    (q.finish x).tickets = q.tickets := by
  unfold finish tickets
  cases q.running <;> rfl

theorem settling_finish (h : q.Orderly) (x : WorkEnd β ε) : Settling q [] (q.finish x) where
  stay := finish_tickets x q ▸ .refl _
  go := fun t ht => .inl (finish_tickets x q ▸ ht)
  gone := by simp
  waits := fun _ hy => hy
  counts := rfl
  heeds := by
    intro y hy
    obtain ⟨z, hz, rfl⟩ := Option.map_eq_some_iff.mp hy
    exact h.runningHeeded z hz

theorem settling_setMaxAge (h : q.Orderly) (age : Duration) : Settling q [] (q.setMaxAge age) where
  stay := .refl _
  go := fun _ ht => .inl ht
  gone := by simp
  waits := fun _ hx => hx
  counts := rfl
  heeds := h.runningHeeded

end RequestQueue

end SmellWatch
