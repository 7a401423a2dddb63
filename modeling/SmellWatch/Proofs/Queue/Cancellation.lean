import SmellWatch.Proofs.Queue.Settlement
/-! To cancel some documents is to cancel their requests, and no others.

What waits is settled at once, and gone; what is gone comes to nothing more (`gone_after`).
What runs is told, and counts as canceled whatever becomes of its work, which may have ended
already (`Stopped`).  All others keep their places and their ages, and if one of them counts as
canceled in the end, another deed has canceled it (`canceled_of_settled`). -/

namespace SmellWatch

namespace RequestQueue

variable {α β ε : Type} {t : Nat}

namespace Run

variable {r : Run α β ε} {wanted : DocumentId → Bool}

/-- A run goes on. -/
def after (r : Run α β ε) (l : List (Deed α β ε)) : Run α β ε := l.foldl next r

/-! ## Requests that are in the queue -/

/-- What runs came in the run. -/
theorem request_of_running {x : Running β ε} (hx : r.queue.running = some x) :
    ∃ y ∈ r.requests, y.ticket = x.ticket ∧ y.key = x.key := by
  induction r generalizing x with
  | start maxAge => cases hx
  | next r d ih =>
    have hline := (r.next d).inLine
    have hin : x.ticket ∈ (r.next d).queue.tickets := mem_tickets.mpr (.inl ⟨x, hx, rfl⟩)
    have hwaits : ∀ w ∈ (r.next d).queue.waiting, w.ticket ≠ x.ticket := fun w hw =>
      Nat.ne_of_gt (hline.running_lt_waiting hx hw)
    have hpast : ∀ y : Running β ε, r.queue.running = some y → y.ticket = x.ticket →
        y.key = x.key → ∃ z ∈ (r.next d).requests, z.ticket = x.ticket ∧ z.key = x.key := by
      intro y hy ht hkey
      obtain ⟨z, hz, hzt, hzkey⟩ := ih hy
      rw [requests_next]
      exact ⟨z, List.mem_append_left _ hz, hzt.trans ht, hzkey.trans hkey⟩
    have hp := passage r d x.ticket
    generalize r.shows d x.ticket = b at hp
    cases hp with
    | apart _ hruns _ => exact hpast x ((hruns x rfl).mp hx) rfl rfl
    | came w hw ht _ _ => exact absurd ht (hwaits w hw)
    | droppedWaiting w hw ht hw' => exact absurd ht (hwaits { w with abandoned := true } hw')
    | droppedGone _ hgone' _ _ => exact absurd hin hgone'
    | left w e canceled hw ht hreason hgone _ => exact absurd hin hgone
    | reaped y e hy ht hended hgone _ => exact absurd hin hgone
    | started w hw ht hheeded hyoung hy =>
      cases hx.symm.trans hy
      rw [requests_next]
      exact ⟨w.request, List.mem_append_left _ (request_mem_requests hw), rfl, rfl⟩
    | droppedRunning y hy ht hy' =>
      cases hx.symm.trans hy'
      exact hpast y hy rfl rfl
    | told y hy ht hy' =>
      cases hx.symm.trans hy'
      exact hpast y hy rfl rfl
    | ended y e hy ht hgoes hy' =>
      cases hx.symm.trans hy'
      exact hpast y hy rfl rfl

theorem requests_inj {x y : Request α} (hx : x ∈ r.requests) (hy : y ∈ r.requests)
    (h : x.ticket = y.ticket) : x = y := by
  have hnodup : (r.requests.map (·.ticket)).Nodup := r.tickets_requests ▸ List.nodup_range
  exact List.inj_on_of_nodup_map hnodup hx hy h

/-- What a cancellation affects are the requests of wanted documents in the queue. -/
theorem mem_cancels_iff_request (r : Run α β ε) (wanted : DocumentId → Bool) (t : Nat) :
    t ∈ r.cancels (.cancel wanted) ↔
      t ∈ r.queue.tickets ∧ ∃ x ∈ r.requests, x.ticket = t ∧ wanted x.key = true := by
  rw [mem_cancels, mem_tickets]
  constructor
  · rintro (⟨w, hw, rfl, hwanted⟩ | ⟨x, hx, rfl, hwanted⟩)
    · exact ⟨.inr ⟨w, hw, rfl⟩, w.request, request_mem_requests hw, rfl, hwanted⟩
    · obtain ⟨y, hy, hyt, hkey⟩ := request_of_running hx
      exact ⟨.inl ⟨x, hx, rfl⟩, y, hy, hyt, hkey ▸ hwanted⟩
  · rintro ⟨⟨x, hx, rfl⟩ | ⟨w, hw, rfl⟩, y, hy, hyt, hwanted⟩
    · obtain ⟨z, hz, hzt, hkey⟩ := request_of_running hx
      rw [requests_inj hy hz (hyt.trans hzt.symm), hkey] at hwanted
      exact .inr ⟨x, hx, rfl, hwanted⟩
    · rw [requests_inj hy (request_mem_requests hw) hyt] at hwanted
      exact .inl ⟨w, hw, rfl, hwanted⟩

theorem cancels_nodup (r : Run α β ε) (wanted : DocumentId → Bool) :
    (r.cancels (.cancel wanted)).Nodup := by
  have hline := r.inLine
  unfold cancels
  refine List.nodup_append.mpr ⟨?_, ?_, ?_⟩
  · exact (hline.waiting_sorted.sublist (List.filter_sublist.map _)).imp Nat.ne_of_lt
  · cases (r.queue.running.filter (wanted ·.key)).map (·.ticket) <;> simp
  · rintro t ht u hu rfl
    obtain ⟨w, hw, hwt⟩ := List.mem_map.mp ht
    obtain ⟨x, hx, rfl⟩ := Option.map_eq_some_iff.mp (Option.mem_toList.mp hu)
    have hlt := hline.running_lt_waiting (Option.filter_eq_some_iff.mp hx).1
      (List.mem_filter.mp hw).1
    omega

theorem count_cancelWhere (r : Run α β ε) (wanted : DocumentId → Bool) :
    (r.queue.cancelWhere wanted).count = (r.cancels (.cancel wanted)).length := by
  unfold cancelWhere cancels
  dsimp only
  rw [List.length_append, List.length_map]
  cases r.queue.running with
  | none => rfl
  | some x => cases h : wanted x.key <;> simp [h, Option.filter]

/-! ## What is gone -/

/-- The request of a ticket was in the queue, and is not any more. -/
def IsGone (r : Run α β ε) (t : Nat) : Prop := t ∉ r.queue.tickets ∧ t < r.queue.nextTicket

/-- All that is seen of what is gone is that it is dropped. -/
theorem gone_next (h : r.IsGone t) (d : Deed α β ε) :
    (r.next d).IsGone t ∧ ((r.next d).tale t).results = (r.tale t).results ∧
      ((r.next d).tale t).starts = (r.tale t).starts := by
  have hwaits : ∀ w ∈ r.queue.waiting, w.ticket ≠ t := fun w hw ht =>
    h.1 (mem_tickets.mpr (.inr ⟨w, hw, ht⟩))
  have hruns : ∀ x, r.queue.running = some x → x.ticket ≠ t := fun x hx ht =>
    h.1 (mem_tickets.mpr (.inl ⟨x, hx, ht⟩))
  rw [tale_next]
  have hp := passage r d t
  generalize r.shows d t = b at hp
  cases hp with
  | apart hwaits' hruns' hissued =>
    refine ⟨⟨mt (mem_tickets_of_apart hwaits' hruns') h.1, hissued.mpr h.2⟩, ?_⟩
    exact ⟨List.append_nil _, List.append_nil _⟩
  | droppedGone _ hgone' _ hissued' =>
    exact ⟨⟨hgone', hissued'⟩, List.append_nil _, List.append_nil _⟩
  | came w hw ht hheeded hnew => exact absurd h.2 (hnew ▸ Nat.lt_irrefl _)
  | droppedWaiting w hw ht hw' => exact absurd ht (hwaits w hw)
  | left w e canceled hw ht hreason hgone hissued => exact absurd ht (hwaits w hw)
  | started w hw ht hheeded hyoung hx => exact absurd ht (hwaits w hw)
  | droppedRunning x hx ht hx' => exact absurd ht (hruns x hx)
  | told x hx ht hx' => exact absurd ht (hruns x hx)
  | ended x e hx ht hgoes hx' => exact absurd ht (hruns x hx)
  | reaped x e hx ht hended hgone hissued => exact absurd ht (hruns x hx)

theorem gone_after (h : r.IsGone t) (l : List (Deed α β ε)) :
    (r.after l).IsGone t ∧ ((r.after l).tale t).results = (r.tale t).results ∧
      ((r.after l).tale t).starts = (r.tale t).starts := by
  induction l generalizing r with
  | nil => exact ⟨h, rfl, rfl⟩
  | cons d l ih =>
    obtain ⟨hgone, hresults, hstarts⟩ := gone_next h d
    obtain ⟨hgone', hresults', hstarts'⟩ := ih hgone
    exact ⟨hgone', hresults'.trans hresults, hstarts'.trans hstarts⟩

/-! ## What waited -/

/-- What a cancellation shows of a ticket. -/
theorem shows_cancel (r : Run α β ε) (wanted : DocumentId → Bool) (t : Nat) :
    r.shows (.cancel wanted) t =
      { results := ((r.queue.evicted (cancellation? wanted)).filter
          (·.ticket = t)).map (·.result)
        canceled := decide (t ∈ r.cancels (.cancel wanted)) } := by
  simp [shows, settles, starting?, ending?, dropping?, perform, cancelWhere_settled]

/-- A request that is canceled while it waits is settled at once, if anybody waits for it, and
never starts. -/
theorem gone_of_waiting {w : Waiting α} (hw : w ∈ r.queue.waiting)
    (hwanted : wanted w.key = true) :
    (r.next (.cancel wanted)).IsGone w.ticket ∧
      ((r.next (.cancel wanted)).tale w.ticket).results =
        (if w.abandoned then [] else [.error .canceled]) ∧
      ((r.next (.cancel wanted)).tale w.ticket).starts = [] := by
  have hline := r.inLine
  have hreason : (cancellation? wanted w : Option (QueueError ε)) = some .canceled :=
    if_pos hwanted
  have hgone : w.ticket ∉ (r.next (.cancel wanted)).queue.tickets := by
    show w.ticket ∉ (r.queue.cancelWhere wanted).queue.tickets
    rw [cancelWhere_tickets]
    exact not_mem_tickets_evict hline hw hreason
  refine ⟨⟨hgone, hline.lt_of_waiting hw⟩, ?_⟩
  rw [tale_next, (r.standing w.ticket).of_waiting hline hw rfl, shows_cancel,
    results_evicted_of_mem hline _ hw, hreason]
  exact ⟨List.nil_append _, rfl⟩

/-! ## What runs -/

/-- A request that was told to stop: it runs on, or it was settled as canceled, or nobody waited
for it when its time came. -/
inductive Stopped (r : Run α β ε) (t : Nat) : Prop
  | runs (x : Running β ε) (hx : r.queue.running = some x) (ht : x.ticket = t)
      (hcanceled : x.canceled = true)
  | gone (h : r.IsGone t)
      (hresults : (r.tale t).results = [.error .canceled] ∨
        (r.tale t).results = [] ∧ t ∈ r.dropped)

theorem Stopped.next (h : r.Stopped t) (d : Deed α β ε) : (r.next d).Stopped t := by
  cases h with
  | gone hgone hresults =>
    obtain ⟨hgone', hsame, -⟩ := gone_next hgone d
    refine .gone hgone' ?_
    rw [hsame, dropped_next]
    exact hresults.imp_right fun h => ⟨h.1, List.mem_append_left _ h.2⟩
  | runs x hx ht hcanceled =>
    subst ht
    have hwaits : ∀ w ∈ r.queue.waiting, w.ticket ≠ x.ticket := fun w hw =>
      Nat.ne_of_gt (r.inLine.running_lt_waiting hx hw)
    obtain ⟨y, htale⟩ := (r.standing x.ticket).of_running r.inLine hx rfl
    have hnext := tale_next r d x.ticket
    have hp := passage r d x.ticket
    generalize r.shows d x.ticket = b at hp hnext
    cases hp with
    | apart _ hruns _ => exact .runs x ((hruns x rfl).mpr hx) rfl hcanceled
    | came w hw ht hheeded hnew => exact absurd hnew (Nat.ne_of_lt (r.inLine.lt_of_running hx))
    | droppedWaiting w hw ht hw' => exact absurd ht (hwaits w hw)
    | left w e canceled hw ht hreason hgone hissued => exact absurd ht (hwaits w hw)
    | started w hw ht hheeded hyoung hx' => exact absurd ht (hwaits w hw)
    | droppedGone hgone _ _ _ => exact absurd (mem_tickets.mpr (.inl ⟨x, hx, rfl⟩)) hgone
    | droppedRunning z hz ht hz' =>
      cases hx.symm.trans hz
      exact .runs _ hz' rfl hcanceled
    | told z hz ht hz' =>
      cases hx.symm.trans hz
      exact .runs _ hz' rfl rfl
    | ended z e hz ht hgoes hz' =>
      cases hx.symm.trans hz
      exact .runs _ hz' rfl hcanceled
    | reaped z e hz ht hended hgone hissued =>
      cases hx.symm.trans hz
      refine .gone ⟨hgone, hissued⟩ ?_
      have hdropped := congrArg Tale.dropped htale
      rw [hnext, htale, result_eq, if_pos hcanceled]
      cases ha : x.abandoned with
      | false => exact .inl rfl
      | true =>
        rw [ha] at hdropped
        rw [dropped_next]
        exact .inr ⟨rfl, List.mem_append_left _ (of_decide_eq_true hdropped)⟩

theorem Stopped.after (h : r.Stopped t) (l : List (Deed α β ε)) : (r.after l).Stopped t := by
  induction l generalizing r with
  | nil => exact h
  | cons d l ih => exact ih (h.next d)

/-- It is settled as canceled or not at all. -/
theorem Stopped.results (h : r.Stopped t) :
    (r.tale t).results = [] ∨ (r.tale t).results = [.error .canceled] := by
  cases h with
  | gone _ hresults => exact hresults.elim .inr fun h => .inl h.1
  | runs x hx ht _ =>
    obtain ⟨y, htale⟩ := (r.standing t).of_running r.inLine hx ht
    exact .inl (congrArg Tale.results htale)

/-- However its work ends, or has ended, it is settled as canceled if anybody waits for it. -/
theorem Stopped.settled (h : r.Stopped t) (hkept : t ∉ r.dropped) (e : WorkEnd β ε) :
    ⟨t, .error .canceled⟩ ∈ ((r.next (.endWork e)).next .reap).settled := by
  cases h with
  | gone _ hresults =>
    have hsettled : ⟨t, .error .canceled⟩ ∈ r.settled :=
      mem_results.mp ((hresults.resolve_right fun h => hkept h.2) ▸ List.mem_singleton_self _)
    rw [settled_next, settled_next]
    exact List.mem_append_left _ (List.mem_append_left _ hsettled)
  | runs x hx ht hcanceled =>
    subst ht
    obtain ⟨y, htale⟩ := (r.standing x.ticket).of_running r.inLine hx rfl
    have hheeded : x.abandoned = false :=
      (congrArg Tale.dropped htale).symm.trans (decide_eq_false hkept)
    obtain ⟨e', hrun⟩ : ∃ e', (r.next (.endWork e)).queue.running =
        some { x with ended := some e' } := by
      show ∃ e', (if r.queue.atWork?.isSome then r.queue.finish e else r.queue).running = _
      cases hended : x.ended with
      | none =>
        refine ⟨e, ?_⟩
        rw [if_pos (by simp [atWork?, hx, hended, Option.filter])]
        simp [finish, hx]
      | some e' =>
        refine ⟨e', ?_⟩
        rw [if_neg (by simp [atWork?, hx, hended, Option.filter]), hx, ← hended]
    rw [settled_next]
    refine List.mem_append_right _ ?_
    show _ ∈ (r.next (.endWork e)).queue.reap.2
    unfold reap
    rw [hrun]
    simp [hheeded, result_eq, hcanceled]

/-! ## What was not canceled -/

/-- What counts as canceled was canceled, by a deed that found it in the queue. -/
theorem canceled_of_settled {r : Run α β ε} (h : ⟨t, .error .canceled⟩ ∈ r.settled) :
    t ∈ r.canceled := by
  induction r with
  | start maxAge => cases h
  | next r d ih =>
    rw [settled_next, List.mem_append] at h
    rw [canceled_next, List.mem_append]
    rcases h with h | h
    · exact .inl (ih h)
    · rcases settles_cases h with ⟨w, hw, rfl, hheeded, hgone, e, hreason, he⟩ | ⟨y, e, hy, ht, he⟩
      · cases he
        cases hreason with
        | unheard habandoned => cases hheeded.symm.trans habandoned
        | canceled wanted hd =>
          subst hd
          refine .inr (mem_cancels.mpr (.inl ⟨w, hw, rfl, ?_⟩))
          -- had it not been wanted, it would wait still
          by_contra hwanted
          refine hgone (mem_tickets.mpr (.inr ⟨w, ?_, rfl⟩))
          exact List.mem_filter.mpr ⟨hw, by simpa using hwanted⟩
      · rw [result_eq] at he
        split at he
        · rename_i hcanceled
          obtain ⟨z, htale⟩ := (r.standing t).of_running r.inLine hy ht
          have hin := congrArg Tale.canceled htale
          rw [hcanceled] at hin
          exact .inl (of_decide_eq_true hin)
        · exact absurd he.symm (resultOf_ne_silent e rfl)

theorem tale_of_not_canceled (hother : t ∉ r.cancels (.cancel wanted)) :
    (r.next (.cancel wanted)).tale t = r.tale t := by
  have hresults : ((r.queue.evicted (cancellation? wanted)).filter (·.ticket = t)).map (·.result) =
      ([] : List (Except (QueueError ε) β)) := by
    by_cases hw : ∃ w ∈ r.queue.waiting, w.ticket = t
    · obtain ⟨w, hw, rfl⟩ := hw
      have hkept : (cancellation? wanted w : Option (QueueError ε)) = none :=
        if_neg fun hwanted => hother (mem_cancels.mpr (.inl ⟨w, hw, rfl, hwanted⟩))
      rw [results_evicted_of_mem r.inLine _ hw, hkept]
    · rw [results_evicted_of_forall_ne fun w hin ht => hw ⟨w, hin, ht⟩]
      rfl
  rw [tale_next, shows_cancel, hresults, decide_eq_false hother]
  exact (r.tale t).append_empty

/-! ## All of it -/

/-- The requests of wanted documents are canceled, and no others; `c` is what the queue makes
of it. -/
structure CancelsExactly (r : Run α β ε) (wanted : DocumentId → Bool) (c : Canceled α β ε) :
    Prop where
  queue : (r.next (.cancel wanted)).queue = c.queue
  settled : (r.next (.cancel wanted)).settled = r.settled ++ c.settled
  affected : ∀ t, t ∈ r.cancels (.cancel wanted) ↔
    t ∈ r.queue.tickets ∧ ∃ x ∈ r.requests, x.ticket = t ∧ wanted x.key = true
  count : (r.cancels (.cancel wanted)).Nodup ∧ c.count = (r.cancels (.cancel wanted)).length
  /-- What waits is settled, if anybody waits for it, and never starts. -/
  waiting : ∀ w ∈ r.queue.waiting, wanted w.key = true → ∀ l,
    (((r.next (.cancel wanted)).after l).tale w.ticket).results =
        (if w.abandoned then [] else [.error .canceled]) ∧
      (((r.next (.cancel wanted)).after l).tale w.ticket).starts = []
  /-- What runs is told to stop; however its work ends, or has ended, it is settled as canceled
  if anybody waits for it, and never otherwise. -/
  running : ∀ x, r.queue.running = some x → wanted x.key = true →
    c.queue.running = some { x with canceled := true } ∧ ∀ l,
      ((((r.next (.cancel wanted)).after l).tale x.ticket).results = [] ∨
        (((r.next (.cancel wanted)).after l).tale x.ticket).results = [.error .canceled]) ∧
      ∀ e, x.ticket ∉ ((r.next (.cancel wanted)).after l).dropped →
        ⟨x.ticket, .error .canceled⟩ ∈
          ((((r.next (.cancel wanted)).after l).next (.endWork e)).next .reap).settled
  /-- The others keep their places and their ages. -/
  kept : c.queue.waiting = r.queue.waiting.filter (!wanted ·.key) ∧
    ∀ x, r.queue.running = some x → wanted x.key = false → c.queue.running = some x
  /-- Nothing is seen of the others, and one that counts as canceled in the end was canceled by
  another deed. -/
  others : ∀ t, t ∉ r.cancels (.cancel wanted) →
    (r.next (.cancel wanted)).tale t = r.tale t ∧
    ∀ l, ⟨t, .error .canceled⟩ ∈ ((r.next (.cancel wanted)).after l).settled →
      ∃ p d, (p, d) ∈ ((r.next (.cancel wanted)).after l).steps ∧ t ∈ p.cancels d ∧
        (p, d) ≠ (r, .cancel wanted)

theorem cancelsExactly (r : Run α β ε) (wanted : DocumentId → Bool) :
    r.CancelsExactly wanted (r.queue.cancelWhere wanted) where
  queue := rfl
  settled := settled_next r (.cancel wanted)
  affected := r.mem_cancels_iff_request wanted
  count := ⟨r.cancels_nodup wanted, r.count_cancelWhere wanted⟩
  waiting := by
    intro w hw hwanted l
    obtain ⟨hgone, hresults, hstarts⟩ := gone_of_waiting hw hwanted
    obtain ⟨-, hresults', hstarts'⟩ := gone_after hgone l
    exact ⟨hresults'.trans hresults, hstarts'.trans hstarts⟩
  running := by
    intro x hx hwanted
    have hrun : (r.queue.cancelWhere wanted).queue.running = some { x with canceled := true } := by
      simp [cancelWhere, hx, hwanted]
    have hstopped : (r.next (.cancel wanted)).Stopped x.ticket := .runs _ hrun rfl rfl
    exact ⟨hrun, fun l => ⟨(hstopped.after l).results,
      fun e hkept => (hstopped.after l).settled hkept e⟩⟩
  kept := by
    refine ⟨rfl, fun x hx hother => ?_⟩
    simp [cancelWhere, hx, hother]
  others := by
    intro t hother
    refine ⟨tale_of_not_canceled hother, fun l hsettled => ?_⟩
    obtain ⟨⟨p, d⟩, hstep, hin⟩ := List.mem_flatMap.mp (canceled_of_settled hsettled)
    refine ⟨p, d, hstep, hin, fun hsame => ?_⟩
    cases hsame
    exact hother hin

/-- To cancel a document is to cancel its requests, waiting or running, and no others, whatever
happens later; to cancel all is to cancel those of all documents. -/
theorem cancels_exactly_those (r : Run α β ε) :
    (∀ key, r.CancelsExactly (· = key) (r.queue.cancelKey key)) ∧
      r.CancelsExactly (fun _ => true) r.queue.cancelAll :=
  ⟨fun key => r.cancelsExactly (· = key), r.cancelsExactly fun _ => true⟩

/-- The work of one request has ended and was not settled yet, and two others wait; then the
documents of the first and of the second are canceled. -/
example :
    let r : Run Nat Nat Nat := [.enqueue ⟨"a.go"⟩ 1, .start, .enqueue ⟨"b.go"⟩ 2,
      .enqueue ⟨"c.go"⟩ 3, .endWork (.returned (.ok 0)), .cancel (· = ⟨"a.go"⟩),
      .cancel (· = ⟨"b.go"⟩), .reap, .start].foldl Run.next (Run.start 30)
    r.settled = [⟨1, .error .canceled⟩, ⟨0, .error .canceled⟩] ∧
      r.starts.map (·.ticket) = [0, 2] := ⟨rfl, rfl⟩

end Run

end RequestQueue

end SmellWatch
