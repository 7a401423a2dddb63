import SmellWatch.Proofs.Watch.Answers
/-! When the remote service is called.

Only the analysis that runs calls the service, and not once it was told to stop
(`called_step`).  The analysis that runs is about the document of its request
(`Run.keyed_running`), and so is each that waits (`Run.keyed_waiting`). -/

namespace SmellWatch

namespace Watch

variable {now : Duration} {id : DocumentId} {r : Run} {e : Event} {w : Watch}

/-! ## Calls among effects -/

/-- The call that is made, by the ticket and the analysis it is made for. -/
def Effect.called? : Effect → Option (Nat × Analysis)
  | .called ticket a => some (ticket, a)
  | _ => none

/-- The calls that are made. -/
def calls (fx : List Effect) : List (Nat × Analysis) := fx.filterMap Effect.called?

@[simp] theorem calls_append (fx gx : List Effect) : calls (fx ++ gx) = calls fx ++ calls gx :=
  List.filterMap_append

@[simp] theorem calls_begun (a : Analysis) (remote : Bool) (fx : List Effect) :
    calls (.begun a remote :: fx) = calls fx := rfl

@[simp] theorem calls_wake (t : Task) (fx : List Effect) : calls (.wake t :: fx) = calls fx := rfl

@[simp] theorem calls_settle (settled : List (RequestQueue.Settled (List Finding) RemoteError))
    (w : Watch) : calls (w.settle settled).2 = [] := by
  show calls (settled.map fun s => .wake (.completion s.ticket)) = []
  induction settled with
  | nil => rfl
  | cons s l ih => exact ih

/-! ## Steps that make none -/

@[simp] theorem calls_fallBack (now : Duration) (a : Analysis) (lead : Option Finding)
    (w : Watch) : calls (w.fallBack now a lead).2 = [] := by
  unfold fallBack
  dsimp only
  split <;> rfl

@[simp] theorem calls_deliverCached (now : Duration) (id : DocumentId) (fp : Fingerprint)
    (w : Watch) : calls (w.deliverCached now id fp).2.2 = [] := by
  unfold deliverCached
  split
  · rfl
  · split <;> rfl

@[simp] theorem calls_trigger (now : Duration) (id : DocumentId) (w : Watch) :
    calls (w.trigger now id).2 = [] := by
  unfold trigger
  split
  · rfl
  · dsimp only
    split
    · rw [calls_begun, calls_fallBack]
    · rw [calls_append, List.cons_append, calls_begun, calls_append, calls_settle, calls_wake]
      split <;> rfl

@[simp] theorem calls_fire (now : Duration) (id : DocumentId) (fp : Fingerprint) (w : Watch) :
    calls (w.fire now id fp).2 = [] := by
  unfold fire
  split
  · exact calls_trigger now id w
  · rfl

theorem calls_update (now : Duration) (id : DocumentId) (content : String) (w : Watch) :
    calls (w.update now id content).2 = [] := by
  unfold update
  split
  · rfl
  · rename_i store _
    have hdelivered := calls_deliverCached now id (Fingerprint.ofText content) { w with store }
    dsimp only
    split
    · rename_i hd
      rw [hd] at hdelivered
      split <;> exact hdelivered
    · rfl

theorem calls_save (now : Duration) (id : DocumentId) (w : Watch) :
    calls (w.save now id).2 = [] := by
  unfold save
  extract_lets flushed w₁
  clear_value flushed w₁
  split
  · exact calls_fire now id _ w₁
  · split
    · rfl
    · rename_i d _
      have hdelivered := calls_deliverCached now id d.fingerprint w₁
      split
      · rfl
      · split
        · rename_i hd
          rw [hd] at hdelivered
          exact hdelivered
        · exact calls_trigger now id _

theorem calls_cancelQueued (wanted : DocumentId → Bool) (w : Watch) :
    calls (w.cancelQueued wanted).2 = [] := by
  unfold cancelQueued
  dsimp only
  rw [calls_append, calls_settle, List.nil_append]
  split
  · split <;> rfl
  · rfl

theorem calls_close (now : Duration) (id : DocumentId) (w : Watch) :
    calls (w.close now id).2 = [] := by
  unfold close
  dsimp only
  rw [calls_append, calls_cancelQueued]
  rfl

theorem calls_scheduleAll (now : Duration) (ids : List DocumentId) (w : Watch) :
    calls (scheduleAll now ids w).2 = [] := by
  induction ids generalizing w with
  | nil => rfl
  | cons id l ih =>
    unfold scheduleAll
    split
    · exact ih w
    · dsimp only
      rw [calls_append, ih, List.append_nil]
      rfl

theorem calls_reconfigure (now : Duration) (options : WatchOptions) (config : Fingerprint)
    (w : Watch) : calls (w.reconfigure now options config).2 = [] := by
  unfold reconfigure
  extract_lets old buckets w₁
  split
  split <;> exact calls_scheduleAll now _ _

theorem calls_quiet (now : Duration) (id : DocumentId) (timer : Debouncer.Timer) (w : Watch) :
    calls (w.quiet now id timer).2 = [] := by
  unfold quiet
  split
  · rfl
  · split
    · rfl
    · exact calls_fire now id _ _

theorem calls_takeTurn (now : Duration) (w : Watch) : calls (w.takeTurn now).2 = [] := by
  unfold takeTurn
  split
  · rfl
  · dsimp only
    split
    · exact calls_settle _ _
    · rw [calls_append, calls_settle]
      rfl

theorem calls_complete (now : Duration) (ticket : Nat) (w : Watch) :
    calls (w.complete now ticket).2 = [] := by
  unfold complete
  split
  · rfl
  · split
    · rfl
    · unfold conclude
      split
      · dsimp only
        split <;> rfl
      · exact calls_fallBack now _ _ _
      · rfl

/-! ## Steps of the analysis that runs -/

theorem calls_follow {ticket : Nat} {a : Analysis} {next : Pursuit.Next (List Finding)}
    (p : Pursuit) (w : Watch) (h : next ≠ .calls) : calls (w.follow ticket a next p).2 = [] := by
  cases next with
  | calls => exact absurd rfl h
  | sleeps time => rfl
  | ends result => rfl

theorem calls_answered (now : Duration) (ticket : Nat) (reply : Reply) (w : Watch) :
    calls (w.answered now ticket reply).2 = [] := by
  unfold answered
  split
  · split
    · rfl
    · cases reply with
      | panicked => rfl
      | returned answer => exact calls_follow _ _ (Pursuit.answered_not_calls answer)
  · rfl

/-- A call is made for the analysis that runs, and that was not told to stop. -/
structure CallsFor (w : Watch) (ticket : Nat) (a : Analysis) : Prop where
  running : ∃ x, w.queue.running = some x ∧ x.ticket = ticket ∧ x.canceled = false
  pursued : ∃ p, w.pursuit = some (a, p)

/-- A call is made for the analysis that runs, and paid with a token of its bucket. -/
theorem calls_goOn {ticket : Nat} {t : Nat} {a : Analysis}
    (h : (t, a) ∈ calls (w.goOn now ticket).2) :
    CallsFor w t a ∧ ∃ b, w.buckets[a.bucket]? = some b ∧ (b.tryTake now).1 = true := by
  unfold goOn at h
  split at h
  · rename_i x b p hrunning hpursuit
    split at h
    · exact absurd h List.not_mem_nil
    · rename_i hcall
      obtain ⟨hticket, hphase⟩ : x.ticket = ticket ∧ p.phase ≠ .calling := by
        simpa only [not_or, Decidable.not_not] using hcall
      split at h
      · exact absurd h List.not_mem_nil
      · rename_i next p' w₁ hdraw
        obtain ⟨bucket, hbucket, hb⟩ := Option.map_eq_some_iff.mp hdraw
        have hnext : next = (p.resume now x.canceled bucket).1 := (congrArg (·.1.1) hb).symm
        by_cases hcalls : next = .calls
        · subst hcalls
          cases List.mem_singleton.mp h
          obtain ⟨hcanceled, htaken⟩ := Pursuit.resume_calls hphase hnext.symm
          exact ⟨⟨⟨x, hrunning, hticket, hcanceled⟩, p, hpursuit⟩, bucket, hbucket, htaken⟩
        · rw [calls_follow p' w₁ hcalls] at h
          exact absurd h List.not_mem_nil
  · exact absurd h List.not_mem_nil

/-- Only an analysis that goes on makes a call. -/
theorem goesOn_of_called {t : Nat} {a : Analysis} (h : (t, a) ∈ calls (w.step now e).2) :
    ∃ ticket, e = .ran (.work ticket) := by
  have hnone : calls (w.step now e).2 = [] → ∃ ticket, e = .ran (.work ticket) := by
    intro hnil
    rw [hnil] at h
    exact absurd h List.not_mem_nil
  cases e with
  | opened id content => exact hnone (calls_update now id content w)
  | changed id content => exact hnone (calls_update now id content w)
  | saved id => exact hnone (calls_save now id w)
  | closed id => exact hnone (calls_close now id w)
  | reconfigured options config => exact hnone (calls_reconfigure now options config w)
  | configSet config => exact hnone rfl
  | shutDown => exact hnone (calls_cancelQueued _ _)
  | ran task =>
    cases task with
    | debounce id timer due =>
      refine hnone ?_
      unfold step run
      dsimp only
      split
      · rfl
      · exact calls_quiet now id timer w
    | worker => exact hnone (calls_takeTurn now w)
    | work ticket => exact ⟨ticket, rfl⟩
    | completion ticket => exact hnone (calls_complete now ticket w)
  | answered ticket reply => exact hnone (calls_answered now ticket reply w)

/-- Every call is made for the analysis that runs, and that was not told to stop. -/
theorem called_step {t : Nat} {a : Analysis} (h : (t, a) ∈ calls (w.step now e).2) :
    CallsFor w t a := by
  obtain ⟨ticket, rfl⟩ := goesOn_of_called h
  exact (calls_goOn h).1

/-- The calls that the last step made. -/
def Run.called (r : Run) : List (Nat × Analysis) := calls r.effects

/-! ## Documents of requests -/

/-- A request that waits is about the document of its analysis. -/
theorem Run.keyed_waiting (r : Run) :
    ∀ x ∈ r.watch.queue.waiting, x.work.document = x.key := by
  intro x hx
  obtain ⟨o, ho, hticket, -⟩ := (r.accounts.balanced x.ticket).mp
    (RequestQueue.mem_tickets.mpr (.inr ⟨x, hx, rfl⟩))
  rw [← r.backed.waiting x hx o ho hticket]
  exact r.accounts.keyed x hx o ho hticket

/-- The analysis that runs is about the document of its request. -/
theorem Run.keyed_running (r : Run) :
    ∀ x a p, r.watch.queue.running = some x → r.watch.pursuit = some (a, p) →
      a.document = x.key := by
  induction r with
  | start options config now => exact fun _ _ _ hx => nomatch hx
  | next r now e ih =>
    intro x a p hx ha
    cases work_step now e r.watch with
    | goesOn hruns hpursuit =>
      obtain ⟨y, hy, -, -, hkey, -⟩ := hruns x hx
      obtain ⟨q, hq, -⟩ := hpursuit a p ha
      exact (ih y a q hy hq).trans hkey
    | ends _ _ _ _ _ _ _ hover _ =>
      rw [show (r.next now e).watch.pursuit = none from hover] at ha
      cases ha
    | turns now' hqueue hidle hstarts =>
      rw [show (r.next now e).watch.queue = _ from hqueue] at hx
      rcases RequestQueue.turn_running r.accounts.orderly now' hx with
        ⟨hnone, hran⟩ | ⟨y, hy, hstarted, -, -, hkey⟩
      · exact ih x a p hran ((hidle hnone).symm.trans ha)
      · obtain ⟨q, hq, -⟩ := hstarts y hstarted
        rw [show (r.next now e).watch.pursuit = _ from hq] at ha
        cases ha
        exact (r.keyed_waiting y hy).trans hkey.symm

end Watch

end SmellWatch
