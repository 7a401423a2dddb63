import SmellWatch.Proofs.Agenda
import SmellWatch.Proofs.Watch.Moves
import SmellWatch.Proofs.Watch.Settings
/-! A rehearsal comes to rest.

Whatever there is to do in a rehearsal is on its agenda (`Attends`): a worker that has something
to do is ready, an analysis that is at work is ready or has an alarm, and what is settled and not
completed is ready.  The editor puts it there (`Attends.happen`), and each task leaves it there
(`Attends.of_moves`).  So when nothing is on the agenda nothing is outstanding
(`Attends.isIdle`).

With each task less is left (`left_lt`): less for the queue, or fewer and nearer calls of the
analysis that is at work, or fewer tasks.  A task that comes too early stays, but it comes too
early once only.  So a rehearsal comes to rest, whatever its service does
(`Attends.comes_to_rest`). -/

namespace SmellWatch

namespace Rehearsal

open Watch

variable {σ : Type} {r r' : Rehearsal σ} {now : Duration} {fx : List Effect}

/-! ## What is on the agenda -/

/-- Whatever there is to do is on the agenda. -/
structure Attends (a : Agenda Task) (r : Rehearsal σ) : Prop where
  fit : r.Fit
  worker : r.watch.NeedsTurn → Task.worker ∈ a.ready
  work : ∀ x, r.watch.IsAtWork x → a.Minds r.due (.work x.ticket)
  completion : ∀ o ∈ r.watch.owed, o.outcome ≠ none → Task.completion o.ticket ∈ a.ready

variable {a : Agenda Task}

theorem Attends.moved (h : Attends a r) : Attends a.moved r where
  fit := h.fit
  worker := fun hneeds => a.moved_spec.2.1 _ (h.worker hneeds)
  work := fun x hx => (h.work x hx).moved
  completion := fun o ho hsome => a.moved_spec.2.1 _ (h.completion o ho hsome)

/-- A rehearsal with nothing on its agenda has nothing to do. -/
theorem Attends.isIdle (h : Attends a r) (hquiet : r.watch.IsQuiet) (hempty : a.IsEmpty) :
    r.watch.IsIdle := by
  have hready : ∀ t, t ∉ a.ready := fun t => hempty.1 ▸ List.not_mem_nil
  have hwork : ∀ x, ¬ r.watch.IsAtWork x := by
    intro x hx
    rcases h.work x hx with ⟨hin, -⟩ | ⟨y, hy, -⟩
    · exact hready _ hin
    · rw [hempty.2] at hy
      cases hy
  have hfree : ¬ r.watch.queue.working = true := fun hworking =>
    hready _ (h.worker ⟨hworking, hwork⟩)
  refine ⟨hquiet, ?_, ?_, fun o ho => ?_⟩
  · by_contra hwaits
    exact hfree (h.fit.worked (.inl hwaits))
  · by_contra hruns
    exact hfree (h.fit.worked (.inr (Option.ne_none_iff_isSome.mp hruns)))
  · by_contra hsome
    exact hready _ (h.completion o ho hsome)

/-- A task that is ready and is not the one that runs stays ready. -/
theorem mem_ready_of_ne {t u : Task} {rest : List Task} (hready : a.ready = t :: rest)
    (hu : u ∈ a.ready) (hne : t ≠ u) (orders : List (Agenda.Order Task)) :
    u ∈ (a.rest.obeyAll orders).ready := by
  refine (Agenda.obeyAll_spec orders a.rest).2.1 u ?_
  rw [hready] at hu
  show u ∈ a.ready.tail
  rw [hready]
  exact (List.mem_cons.mp hu).resolve_left fun heq => hne heq.symm

/-- What there is to do after a turn of the worker is on the agenda: it works no more, or on what
it has started. -/
theorem Attends.of_turn (h : Attends a r) {rest : List Task} (hready : a.ready = .worker :: rest)
    (hneeds : r.watch.NeedsTurn) {settled : List Settled}
    {started : Option (RequestQueue.Waiting Analysis)}
    (hturns : Turns r.watch.queue (r'.watch.queue, settled, started))
    (howed : r'.watch.owed = r.watch.owed.map (Owed.settledBy settled))
    (hcall : r'.call = r.call) (hfit : r'.Fit) :
    Attends (a.rest.obeyAll (turnOrders settled started)) r' := by
  have hdue : r'.due = 0 := by
    unfold due
    rw [hcall, (h.fit.resting hneeds.2).1]
  have hwork : ∀ x, r'.watch.IsAtWork x → ∃ y ∈ started, x.ticket = y.ticket := by
    intro x hx
    have hrunning := hx.1
    generalize hq : r'.watch.queue = q at hturns
    rw [hq] at hrunning
    cases hturns with
    | rests _ _ => cases hrunning
    | starts _ y _ _ _ _ => exact ⟨y, rfl, by rw [← Option.some.inj hrunning]⟩
  have hfree : ¬ r'.watch.NeedsTurn := by
    rintro ⟨hworking, hidle⟩
    generalize hq : r'.watch.queue = q at hturns
    rw [hq] at hworking
    cases hturns with
    | rests _ _ => cases hworking
    | starts _ y _ _ _ _ => exact hidle _ ⟨congrArg RequestQueue.running hq, rfl⟩
  refine ⟨hfit, fun hneeds => absurd hneeds hfree, fun x hx => ?_, fun o ho hsome => ?_⟩
  · obtain ⟨y, hy, hticket⟩ := hwork x hx
    obtain rfl := Option.mem_def.mp hy
    rw [hdue, hticket]
    exact .inl ⟨Agenda.mem_obeyAll_of_wake
      (List.mem_append_right _ (List.mem_singleton_self _)) _, Nat.zero_le _⟩
  · rw [howed] at ho
    obtain ⟨p, hp, rfl⟩ := List.mem_map.mp ho
    rw [settledBy_ticket]
    obtain ⟨x, houtcome⟩ := Option.ne_none_iff_exists'.mp hsome
    rcases settledBy_outcome houtcome with hwas | ⟨s, hs, hticket, -⟩
    · exact mem_ready_of_ne hready (h.completion p hp (by rw [hwas]; nofun)) nofun _
    · refine Agenda.mem_obeyAll_of_wake ?_ _
      rw [← hticket]
      exact List.mem_append_left _ (List.mem_map_of_mem hs)

/-- What there is to do after a task is on the agenda. -/
theorem Attends.of_moves (h : Attends a r) {t : Task} {rest : List Task}
    (hready : a.ready = t :: rest) {orders : List (Agenda.Order Task)}
    (hmoves : Moves a.time t r r' orders) (hfit : r'.Fit) :
    Attends (a.rest.obeyAll orders) r' := by
  cases hmoves with
  | still hsame horders howed hdone hturn hwork =>
    refine ⟨hfit, fun hneeds => ?_, fun x hx => ?_, fun o ho hsome => ?_⟩
    · rw [hsame.needsTurn_iff] at hneeds
      exact mem_ready_of_ne hready (h.worker hneeds) (fun ht => hturn ht hneeds) orders
    · rw [hsame.isAtWork_iff] at hx
      rw [hsame.due_eq]
      refine Agenda.Minds.obeyAll ?_ orders
      by_cases ht : t = .work x.ticket
      · rcases h.work x hx with ⟨-, hpast⟩ | halarm
        · exact absurd (hwork x hx ht) (Nat.not_lt_of_le hpast)
        · exact .inr halarm
      · exact (h.work x hx).rest hready fun heq => ht heq.symm
    · exact mem_ready_of_ne hready (h.completion o (howed.mem ho) hsome) (hdone o ho hsome) orders
  | early time hsame horders howed hearly htask =>
    have hother : (∀ ticket, t ≠ .completion ticket) ∧ t ≠ .worker := by
      rcases htask with ⟨id, timer, rfl⟩ | ⟨ticket, a, p, rfl, -⟩
      · exact ⟨nofun, nofun⟩
      · exact ⟨nofun, nofun⟩
    refine ⟨hfit, fun hneeds => ?_, fun x hx => ?_, fun o ho hsome => ?_⟩
    · rw [hsame.needsTurn_iff] at hneeds
      exact mem_ready_of_ne hready (h.worker hneeds) hother.2 orders
    · rw [hsame.isAtWork_iff] at hx
      rw [hsame.due_eq]
      by_cases ht : t = .work x.ticket
      · rcases htask with ⟨id, timer, hdebounce⟩ | ⟨ticket, a, p, -, hnone, -⟩
        · rw [hdebounce] at ht
          cases ht
        · have hzero : r.due = 0 := by
            unfold due
            rw [hnone]
          rw [hzero, ← ht]
          exact (Agenda.minds_of_alarm (horders ▸ List.mem_singleton_self _) _).mono
            (Nat.zero_le time)
      · exact ((h.work x hx).rest hready fun heq => ht heq.symm).obeyAll orders
    · exact mem_ready_of_ne hready (h.completion o (howed ▸ ho) hsome) (hother.1 _) orders
  | goesOn x hx ht hqueue howed _ _ _ _ time hdue horders =>
    refine ⟨hfit, fun hneeds => ?_, fun y hy => ?_, fun o ho hsome => ?_⟩
    · exact absurd ⟨hqueue ▸ hx.1, hx.2⟩ (hneeds.2 x)
    · obtain rfl := hx.unique ⟨hqueue ▸ hy.1, hy.2⟩
      rw [← ht]
      exact (Agenda.minds_of_alarm (horders ▸ List.mem_singleton_self _) _).mono hdue
    · refine mem_ready_of_ne hready (h.completion o (howed ▸ ho) hsome) ?_ orders
      rw [ht]
      nofun
  | ends x hx ht reply hqueue howed _ _ _ _ horders =>
    refine ⟨hfit, fun _ => ?_, fun y hy => ?_, fun o ho hsome => ?_⟩
    · exact Agenda.mem_obeyAll_of_wake (horders ▸ List.mem_singleton_self _) _
    · exact absurd hy (not_isAtWork_of_finish hx hqueue y)
    · refine mem_ready_of_ne hready (h.completion o (howed ▸ ho) hsome) ?_ orders
      rw [ht]
      nofun
  | turns ht hneeds settled started hturns howed _ hcall _ horders =>
    rw [horders]
    exact h.of_turn (ht ▸ hready) hneeds hturns howed hcall hfit

/-! ## How much is left -/

/-- The time before which a task is only put off. -/
def notBefore (r : Rehearsal σ) : Task → Duration
  | .debounce _ _ due => due
  | .work _ => (r.watch.pursuit.bind (·.2.wakesAt?)).getD 0
  | .worker | .completion _ => 0

/-- How often a task has to run to do more than to be put off. -/
def tries (r : Rehearsal σ) (now : Nat) (t : Task) : Nat :=
  if Duration.ofMillis now < r.notBefore t then 2 else 1

theorem tries_antitone (r : Rehearsal σ) (t : Task) : Antitone (r.tries · t) := by
  intro m n hmn
  have hle := Agenda.ofMillis_le hmn
  unfold tries
  dsimp only
  by_cases hn : Duration.ofMillis n < r.notBefore t
  · rw [if_pos hn, if_pos (hle.trans_lt hn)]
  · rw [if_neg hn]
    split <;> decide

theorem tries_pos (r : Rehearsal σ) (now : Nat) (t : Task) : 0 < r.tries now t := by
  unfold tries
  split <;> decide

theorem tries_congr (hpursuit : r'.watch.pursuit = r.watch.pursuit) : r'.tries = r.tries := by
  funext now t
  unfold tries notBefore
  rw [hpursuit]

/-- How much is left to do: requests, then calls of the analysis that is at work, then tasks. -/
def left (a : Agenda Task) (r : Rehearsal σ) : ℕ ×ₗ ((ℕ ×ₗ ℕ) ×ₗ ℕ) :=
  toLex (load r.watch.queue, toLex (r.course, a.weight r.tries))

theorem left_moved (a : Agenda Task) (r : Rehearsal σ) : left a.moved r ≤ left a r :=
  Prod.Lex.toLex_le_toLex.mpr (.inr ⟨rfl, Prod.Lex.toLex_le_toLex.mpr
    (.inr ⟨rfl, Agenda.weight_moved r.tries_antitone a⟩)⟩)

/-- With each task less is left. -/
theorem left_lt {t : Task} {rest : List Task} (hready : a.ready = t :: rest)
    {orders : List (Agenda.Order Task)} (hmoves : Moves a.time t r r' orders) :
    left (a.rest.obeyAll orders) r' < left a r := by
  have hweight := Agenda.weight_rest r.tries hready
  have hpos := r.tries_pos a.now t
  have hrest : orders = [] → load r'.watch.queue = load r.watch.queue → r'.course = r.course →
      r'.watch.pursuit = r.watch.pursuit → left (a.rest.obeyAll orders) r' < left a r := by
    rintro rfl hload hcourse hpursuit
    refine Prod.Lex.toLex_lt_toLex.mpr (.inr ⟨hload, Prod.Lex.toLex_lt_toLex.mpr
      (.inr ⟨hcourse, ?_⟩)⟩)
    rw [tries_congr hpursuit]
    show a.rest.weight r.tries < _
    omega
  cases hmoves with
  | still hsame horders _ _ _ _ =>
    exact hrest horders (by rw [hsame.queue]) hsame.course_eq hsame.pursuit
  | early time hsame horders _ hearly htask =>
    refine Prod.Lex.toLex_lt_toLex.mpr (.inr ⟨by rw [hsame.queue], Prod.Lex.toLex_lt_toLex.mpr
      (.inr ⟨hsame.course_eq, ?_⟩)⟩)
    have hagain : (a.rest.setAlarm time t).weight r.tries =
        a.rest.weight r.tries + r.tries time.ceilMillis t := Agenda.weight_setAlarm _ _ _ _
    have htime : r.notBefore t = time := by
      rcases htask with ⟨id, timer, rfl⟩ | ⟨ticket, b, p, rfl, -, hpursuit, hwakes⟩
      · rfl
      · unfold notBefore
        rw [hpursuit]
        exact (congrArg (Option.getD · 0) hwakes)
    have htwo : r.tries a.now t = 2 := if_pos (htime ▸ hearly)
    have hone : r.tries time.ceilMillis t = 1 := by
      unfold tries
      rw [htime, if_neg (Nat.not_lt_of_le (Agenda.le_ofMillis_ceilMillis time))]
    rw [tries_congr hsame.pursuit, horders]
    show (a.rest.setAlarm time t).weight r.tries < _
    omega
  | goesOn _ _ _ hqueue _ _ _ _ hcourse _ _ _ =>
    exact Prod.Lex.toLex_lt_toLex.mpr (.inr ⟨by rw [hqueue], Prod.Lex.toLex_lt_toLex.mpr
      (.inl hcourse)⟩)
  | ends x hx _ reply hqueue _ _ _ _ _ _ =>
    refine Prod.Lex.toLex_lt_toLex.mpr (.inl ?_)
    rw [hqueue]
    exact load_finish hx reply
  | turns _ _ settled started hturns _ hbuckets _ hpursuit horders =>
    rcases hturns.load_lt with hless | ⟨hnone, hstill, hnothing⟩
    · exact Prod.Lex.toLex_lt_toLex.mpr (.inl hless)
    · obtain ⟨rfl, rfl⟩ := Prod.mk.inj hnothing
      have hpursuit : r'.watch.pursuit = r.watch.pursuit := hpursuit
      refine hrest horders (hstill.trans hnone.symm) ?_ hpursuit
      unfold course
      rw [hpursuit, hbuckets]

/-- A rehearsal with all there is to do on its agenda comes to rest. -/
theorem Attends.comes_to_rest (h : Attends r.agenda r) (hquiet : r.watch.IsQuiet) :
    ∃ enough, ∀ limit ≥ enough, (r.runUntil limit).watch.IsIdle := by
  have hmoved : ∀ (a : Agenda Task) (s : Rehearsal σ), Attends a s ∧ s.watch.IsQuiet →
      (Attends a.moved s ∧ s.watch.IsQuiet) ∧ left a.moved s ≤ left a s :=
    fun a s h => ⟨⟨h.1.moved, h.2⟩, left_moved a s⟩
  have hstep : ∀ (a : Agenda Task) (s : Rehearsal σ) (t : Task) (rest : List Task),
      Attends a s ∧ s.watch.IsQuiet → a.ready = t :: rest →
      (Attends (a.rest.obeyAll (s.runTask a.time t).2) (s.runTask a.time t).1 ∧
        (s.runTask a.time t).1.watch.IsQuiet) ∧
      left (a.rest.obeyAll (s.runTask a.time t).2) (s.runTask a.time t).1 < left a s := by
    rintro a s t rest ⟨hattends, hquiet⟩ hready
    obtain ⟨hmoves, hdebouncers⟩ := hattends.fit.moves hquiet a.time t
    refine ⟨⟨hattends.of_moves hready hmoves (hattends.fit.of_moves hmoves), ?_⟩,
      left_lt hready hmoves⟩
    unfold IsQuiet
    rw [hdebouncers]
    exact hquiet
  obtain ⟨a, s, ⟨hattends, hquiet'⟩, hempty, enough, hrun⟩ :=
    Agenda.comes_to_rest hmoved hstep r.agenda r ⟨h, hquiet⟩
  refine ⟨enough + r.agenda.now, fun limit hlimit => ?_⟩
  have hfuel : enough ≤ r.agenda.fuel limit := by
    unfold Agenda.fuel
    have hfactor : 1 ≤ r.agenda.ready.length + r.agenda.alarms.length + 8 := by omega
    have := Nat.le_mul_of_pos_right ((limit - r.agenda.now + 2) * 16) hfactor
    omega
  unfold runUntil Agenda.run
  rw [hrun limit (by omega) _ hfuel]
  exact hattends.isIdle hquiet' hempty

/-! ## What the editor brings in -/

/-- Two watches that differ in the documents at most. -/
structure Alike (w w' : Watch) : Prop where
  queue : w'.queue = w.queue
  owed : w'.owed = w.owed
  pursuit : w'.pursuit = w.pursuit
  buckets : w'.buckets = w.buckets

/-- What a step of the editor brings to the queue: nothing, or one analysis. -/
inductive Enters (now : Duration) (w : Watch) : Watch × List Effect → Prop
  | still {w' : Watch} (fx : List Effect) (halike : Alike w w') : Enters now w (w', fx)
  | comes (a : Analysis) {w' : Watch} {fx : List Effect} (hbucket : a.bucket = w.bucket)
      (hqueue : w'.queue = (w.queue.enqueue now a.document a).queue)
      (howed : w'.owed =
        w.owed.map (Owed.settledBy (w.queue.enqueue now a.document a).settled) ++
          [{ ticket := w.queue.nextTicket, analysis := a }])
      (hpursuit : w'.pursuit = w.pursuit) (hbuckets : w'.buckets = w.buckets)
      (hsettled : ∀ s ∈ (w.queue.enqueue now a.document a).settled,
        Effect.wake (.completion s.ticket) ∈ fx)
      (hstarts : w.queue.working = false → Effect.wake .worker ∈ fx) : Enters now w (w', fx)

theorem Alike.of_store (w : Watch) (store : DocumentStore) : Alike w { w with store } :=
  ⟨rfl, rfl, rfl, rfl⟩

theorem alike_setDebouncer (w : Watch) (id : DocumentId) (d : Debouncer Fingerprint) :
    Alike w (w.setDebouncer id d) := by
  unfold setDebouncer
  split <;> exact ⟨rfl, rfl, rfl, rfl⟩

theorem alike_schedule (now : Duration) (id : DocumentId) (fp : Fingerprint) (w : Watch) :
    Alike w (w.schedule now id fp).1 := by
  unfold schedule setDebouncer
  dsimp only
  split <;> exact ⟨rfl, rfl, rfl, rfl⟩

theorem alike_flushed (w : Watch) (id : DocumentId) : Alike w (w.flushed id) := by
  unfold flushed
  split
  · exact alike_setDebouncer w id _
  · exact ⟨rfl, rfl, rfl, rfl⟩

/-- Where two watches are alike, the same comes in. -/
theorem Alike.enters {w₁ w : Watch} {y : Watch × List Effect} (hw : Alike w w₁)
    (h : Enters now w₁ y) : Enters now w y := by
  obtain ⟨hqueue, howed, hpursuit, hbuckets⟩ := hw
  cases h with
  | still fx hsame =>
    exact .still fx ⟨hsame.queue.trans hqueue, hsame.owed.trans howed,
      hsame.pursuit.trans hpursuit, hsame.buckets.trans hbuckets⟩
  | comes a hbucket hq ho hp hb hsettled hstarts =>
    rw [hqueue] at hq ho hsettled hstarts
    rw [howed] at ho
    refine .comes a (hbucket.trans ?_) hq ho (hp.trans hpursuit) (hb.trans hbuckets) hsettled
      hstarts
    unfold bucket
    rw [hbuckets]

theorem enters_trigger (now : Duration) (id : DocumentId) (w : Watch) :
    Enters now w (w.trigger now id) := by
  cases hopen : w.store.get? id with
  | none =>
    rw [trigger_of_busy fun d hd => by rw [hopen] at hd; cases hd]
    exact .still [] (.of_store w w.store)
  | some d =>
    cases hbusy : d.inFlight with
    | true =>
      rw [trigger_of_busy fun d' hd' => by cases hopen.symm.trans hd'; exact hbusy]
      exact .still [] (.of_store w w.store)
    | false =>
      by_cases hrefused : w.refused = some w.store.config
      · rw [trigger_local now hopen hbusy hrefused]
        exact .still _ (.of_store w _)
      · rw [trigger_remote hopen hbusy hrefused]
        refine .comes (w.analysisOf id d) rfl rfl rfl rfl rfl (fun s hs => ?_) fun hfree => ?_
        · exact List.mem_append_left _ (List.mem_append_left _
            (List.mem_cons_of_mem _ (List.mem_map_of_mem hs)))
        · have hstarts : (w.queue.enqueue now id (w.analysisOf id d)).startsWorker = true :=
            congrArg (!·) hfree
          refine List.mem_append_left _ (List.mem_append_right _ ?_)
          rw [if_pos hstarts]
          exact List.mem_singleton_self _

theorem enters_save (now : Duration) (id : DocumentId) (w : Watch) :
    Enters now w (w.save now id) := by
  refine (alike_flushed w id).enters ?_
  have hstill : Enters now (w.flushed id) (w.flushed id, []) := .still [] (.of_store _ _)
  rw [save_eq]
  split
  · unfold fire
    split
    · exact enters_trigger now id _
    · exact hstill
  · split
    · exact hstill
    · rename_i d hopen
      split
      · exact hstill
      · cases hcached : (w.flushed id).store.getCached? now id with
        | none =>
          rw [deliverCached_of_none hcached]
          exact enters_trigger now id _
        | some findings =>
          rw [deliverCached_of_some hopen hcached]
          exact .still _ (.of_store _ _)

theorem enters_update (now : Duration) (id : DocumentId) (content : String) (w : Watch) :
    Enters now w (w.update now id content) := by
  by_cases hnews : w.store.IsNews id (Fingerprint.ofText content)
  · cases hcached : (w.store.upsert id content).2.getCached? now id with
    | none =>
      rw [update_missed hnews hcached]
      exact (Alike.of_store w _).enters (.still _ (alike_schedule now id _ _))
    | some findings =>
      rw [update_cached hnews hcached]
      exact (Alike.of_store w _).enters (.still _ (alike_flushed _ id))
  · rw [update_same now hnews]
    exact .still [] (.of_store w w.store)

/-- After an edit only the document that was edited may wait to be left alone. -/
theorem quiet_update {w : Watch} (h : w.IsQuiet) (now : Duration) (id : DocumentId)
    (content : String) : ∀ x ∈ (w.update now id content).1.debouncers, x.1 ≠ id →
      x.2.isPending = false := by
  intro x hx hne
  by_cases hnews : w.store.IsNews id (Fingerprint.ofText content)
  · cases hcached : (w.store.upsert id content).2.getCached? now id with
    | none =>
      rw [update_missed hnews hcached] at hx
      rcases mem_setDebouncer hx with rfl | ⟨-, hx⟩
      · exact absurd rfl hne
      · exact h x hx
    | some findings =>
      rw [update_cached hnews hcached] at hx
      rcases mem_flushed hx with ⟨d, -, rfl⟩ | ⟨-, hx⟩
      · rfl
      · exact h x hx
  · rw [update_same now hnews] at hx
    exact h x hx

/-- A save takes away what waits of its document. -/
theorem isQuiet_save {w : Watch} {id : DocumentId}
    (h : ∀ x ∈ w.debouncers, x.1 ≠ id → x.2.isPending = false) (now : Duration) :
    (w.save now id).1.IsQuiet := by
  intro x hx
  rw [(inert_save now id w).debouncers] at hx
  rcases mem_flushed hx with ⟨d, -, rfl⟩ | ⟨hne, hx⟩
  · rfl
  · exact h x hx hne

theorem mem_filterMap_order? {o : Agenda.Order Task} (h : Effect.ordered o ∈ fx) :
    o ∈ fx.filterMap Effect.order? :=
  List.mem_filterMap.mpr ⟨_, h, rfl⟩

/-- What the editor brings in is on the agenda. -/
theorem Attends.enters (h : Attends a r) {w' : Watch} (henters : Enters now r.watch (w', fx))
    (hissued : ∀ o ∈ r.watch.owed, o.ticket < r.watch.queue.nextTicket)
    (hwatch : r'.watch = w') (hcall : r'.call = r.call) :
    Attends (a.obeyAll (fx.filterMap Effect.order?)) r' := by
  obtain ⟨-, hready, -⟩ := Agenda.obeyAll_spec (fx.filterMap Effect.order?) a
  have hdue : r'.due = r.due := by
    unfold due
    rw [hcall]
  subst hwatch
  cases henters with
  | still fx halike =>
    have hsame : SameCourse r r' := ⟨halike.queue, halike.pursuit, halike.buckets, hcall⟩
    refine ⟨h.fit.of_same hsame (halike.owed ▸ .refl _), fun hneeds => ?_, fun x hx => ?_,
      fun o ho hsome => hready _ (h.completion o (halike.owed ▸ ho) hsome)⟩
    · exact hready _ (h.worker (hsame.needsTurn_iff.mp hneeds))
    · rw [hdue]
      exact (h.work x ((hsame.isAtWork_iff x).mp hx)).obeyAll _
  | comes b hbucket hqueue howed hpursuit hbuckets hsettled hstarts =>
    have hrunning : r'.watch.queue.running = r.watch.queue.running := by rw [hqueue]; rfl
    have hwork : ∀ x, r'.watch.IsAtWork x ↔ r.watch.IsAtWork x := fun x => by
      unfold IsAtWork
      rw [hrunning]
    refine ⟨⟨?_, ?_, ?_, fun y hy => ?_, fun _ => ?_, fun x hx => ?_, fun hnone => ?_⟩,
      fun hneeds => ?_, fun x hx => ?_, fun o ho hsome => ?_⟩
    · -- the new ticket is above all that there are
      have htickets : r'.watch.owed.map (·.ticket) =
          r.watch.owed.map (·.ticket) ++ [r.watch.queue.nextTicket] := by
        rw [howed, List.map_append, List.map_map]
        congr 1
        exact List.map_congr_left fun o _ => settledBy_ticket _ o
      rw [htickets]
      refine h.fit.distinct.append (List.nodup_singleton _) ?_
      rw [List.disjoint_singleton]
      intro hin
      obtain ⟨o, ho, hticket⟩ := List.mem_map.mp hin
      exact absurd (hissued o ho) (by rw [hticket]; exact lt_irrefl _)
    · exact hbuckets ▸ h.fit.stocked
    · exact hbuckets ▸ h.fit.sound
    · rw [hbuckets]
      rw [hqueue] at hy
      rcases List.mem_append.mp hy with hy | hy
      · exact h.fit.waiting y (List.mem_of_mem_filter hy)
      · rw [List.mem_singleton.mp hy]
        show b.bucket < _
        rw [hbucket]
        exact Nat.sub_lt h.fit.stocked Nat.one_pos
    · rw [hqueue]
      rfl
    · have hpursued := h.fit.pursued x ((hwork x).mp hx)
      unfold IsPursued at hpursued ⊢
      rw [hpursuit, hbuckets, hcall]
      exact hpursued
    · rw [hcall, hpursuit]
      exact h.fit.resting fun x hx => hnone x ((hwork x).mpr hx)
    · cases hworking : r.watch.queue.working with
      | true => exact hready _ (h.worker ⟨hworking, fun x hx => hneeds.2 x ((hwork x).mpr hx)⟩)
      | false =>
        exact Agenda.mem_obeyAll_of_wake (mem_filterMap_order? (hstarts hworking)) a
    · rw [hdue]
      exact (h.work x ((hwork x).mp hx)).obeyAll _
    · rw [howed] at ho
      rcases List.mem_append.mp ho with ho | ho
      · obtain ⟨p, hp, rfl⟩ := List.mem_map.mp ho
        rw [settledBy_ticket]
        obtain ⟨x, houtcome⟩ := Option.ne_none_iff_exists'.mp hsome
        rcases settledBy_outcome houtcome with hwas | ⟨s, hs, hticket, -⟩
        · exact hready _ (h.completion p hp (by rw [hwas]; nofun))
        · rw [← hticket]
          exact Agenda.mem_obeyAll_of_wake (mem_filterMap_order? (hsettled s hs)) a
      · rw [List.mem_singleton.mp ho] at hsome
        exact absurd rfl hsome

theorem Attends.happen (h : Attends r.agenda r) {e : Event}
    (henters : Enters r.time r.watch (r.watch.step r.time e))
    (hcalls : calls (r.watch.step r.time e).2 = [])
    (hissued : ∀ o ∈ r.watch.owed, o.ticket < r.watch.queue.nextTicket) :
    Attends (r.happen e).agenda (r.happen e) ∧
      (r.happen e).watch = (r.watch.step r.time e).1 := by
  obtain ⟨log, heq⟩ := stepWatch_of_noCall (r := r) (f := (·.step r.time e)) rfl hcalls r.time
  unfold Rehearsal.happen
  rw [heq]
  exact ⟨h.enters henters hissued rfl rfl, rfl⟩

/-- A rehearsal in which nothing has happened yet. -/
theorem attends_start {σ : Type} (options : WatchOptions) (config : Fingerprint) (now : Duration)
    (service : σ) (serve : σ → Analysis → ServiceCall × σ) :
    Attends {} { watch := .ofOptions options config now, service, serve } where
  fit :=
    { distinct := List.nodup_nil
      stocked := Nat.one_pos
      sound := fun b hb => by
        rw [List.mem_singleton.mp hb]
        exact TokenBucket.isSound_full _ now
      waiting := fun y hy => absurd hy List.not_mem_nil
      worked := fun h => by
        rcases h with hwaits | hruns
        · exact absurd rfl hwaits
        · cases hruns
      pursued := fun x hx => by cases hx.1
      resting := fun _ => ⟨rfl, rfl⟩ }
  worker := fun hneeds => by cases hneeds.1
  work := fun x hx => by cases hx.1
  completion := fun o ho => absurd ho List.not_mem_nil

end Rehearsal

end SmellWatch
