import SmellWatch.Proofs.DocumentStore
import SmellWatch.Proofs.RequestQueue
import SmellWatch.Proofs.Watch.Run
/-! The terms on which a watch works: its options, the settings whose key was refused, and
the analysis that runs with its pursuit.

Edits leave them as they are (`sameTerms_update`, `sameTerms_save`, …).  `refused_step`
tells of every step whether it says that a key was refused, or takes that back. -/

namespace SmellWatch

namespace Watch

variable {now : Duration} {id : DocumentId} {fp : Fingerprint} {w w' w'' : Watch} {e : Event}

/-- Two watches work on the same terms. -/
structure SameTerms (w w' : Watch) : Prop where
  options : w'.options = w.options
  refused : w'.refused = w.refused
  pursuit : w'.pursuit = w.pursuit
  runs : w.queue.RunsOn w'.queue

namespace SameTerms

/-- Two watches that differ elsewhere work on the same terms. -/
theorem of_eq (hoptions : w'.options = w.options) (hrefused : w'.refused = w.refused)
    (hpursuit : w'.pursuit = w.pursuit) (hrunning : w'.queue.running = w.queue.running) :
    SameTerms w w' := ⟨hoptions, hrefused, hpursuit, .of_eq hrunning⟩

theorem refl (w : Watch) : SameTerms w w := .of_eq rfl rfl rfl rfl

theorem trans (h : SameTerms w w') (k : SameTerms w' w'') : SameTerms w w'' :=
  ⟨k.options.trans h.options, k.refused.trans h.refused, k.pursuit.trans h.pursuit,
    h.runs.trans k.runs⟩

/-- The documents are no part of the terms. -/
theorem of_store {store : DocumentStore} (h : SameTerms { w with store } w') : SameTerms w w' :=
  ⟨h.options, h.refused, h.pursuit, h.runs⟩

end SameTerms

/-! ## Steps of the editor -/

theorem sameTerms_setDebouncer (w : Watch) (id : DocumentId) (d : Debouncer Fingerprint) :
    SameTerms w (w.setDebouncer id d) := by
  unfold setDebouncer
  split <;> exact .of_eq rfl rfl rfl rfl

theorem sameTerms_deliverCached (now : Duration) (id : DocumentId) (fp : Fingerprint) (w : Watch) :
    SameTerms w (w.deliverCached now id fp).2.1 := by
  unfold deliverCached
  split
  · exact .refl w
  · split <;> exact .of_eq rfl rfl rfl rfl

theorem sameTerms_fallBack (now : Duration) (a : Analysis) (lead : Option Finding) (w : Watch) :
    SameTerms w (w.fallBack now a lead).1 := by
  unfold fallBack
  dsimp only
  split <;> exact .of_eq rfl rfl rfl rfl

theorem sameTerms_trigger (now : Duration) (id : DocumentId) (w : Watch) :
    SameTerms w (w.trigger now id).1 := by
  unfold trigger
  split
  · exact .refl w
  · dsimp only
    split
    · exact (sameTerms_fallBack now _ none _).of_store
    · exact .of_eq rfl rfl rfl rfl

theorem sameTerms_fire (now : Duration) (id : DocumentId) (fp : Fingerprint) (w : Watch) :
    SameTerms w (w.fire now id fp).1 := by
  unfold fire
  split
  · exact sameTerms_trigger now id w
  · exact .refl w

theorem sameTerms_schedule (now : Duration) (id : DocumentId) (fp : Fingerprint) (w : Watch) :
    SameTerms w (w.schedule now id fp).1 := by
  have hcounted : SameTerms w { w with timers := w.timers + 1 } := .of_eq rfl rfl rfl rfl
  exact hcounted.trans (sameTerms_setDebouncer _ id _)

theorem sameTerms_update (now : Duration) (id : DocumentId) (content : String) (w : Watch) :
    SameTerms w (w.update now id content).1 := by
  unfold update
  split
  · exact .refl w
  · rename_i store _
    have hdelivered := sameTerms_deliverCached now id (Fingerprint.ofText content) { w with store }
    dsimp only
    split
    · rename_i hd
      rw [hd] at hdelivered
      split
      · exact (hdelivered.trans (sameTerms_setDebouncer _ id _)).of_store
      · exact hdelivered.of_store
    · rename_i hd
      rw [hd] at hdelivered
      exact (hdelivered.trans (sameTerms_schedule now id _ _)).of_store

theorem sameTerms_save (now : Duration) (id : DocumentId) (w : Watch) :
    SameTerms w (w.save now id).1 := by
  unfold save
  extract_lets flushed w₁
  clear_value flushed
  have hflushed : SameTerms w w₁ := by
    cases flushed with
    | none => exact .refl w
    | some x => exact sameTerms_setDebouncer w id x.2
  clear_value w₁
  split
  · exact hflushed.trans (sameTerms_fire now id _ w₁)
  · split
    · exact hflushed
    · rename_i d _
      have hdelivered := sameTerms_deliverCached now id d.fingerprint w₁
      split
      · exact hflushed
      · split
        · rename_i hd
          rw [hd] at hdelivered
          exact hflushed.trans hdelivered
        · rename_i hd
          rw [hd] at hdelivered
          exact hflushed.trans (hdelivered.trans (sameTerms_trigger now id _))

theorem sameTerms_close (now : Duration) (id : DocumentId) (w : Watch) :
    SameTerms w (w.close now id).1 := ⟨rfl, rfl, rfl, .cancelWhere (· = id) w.queue⟩

theorem sameTerms_shutDown (w : Watch) : SameTerms w w.shutDown.1 :=
  ⟨rfl, rfl, rfl, .cancelWhere (fun _ => true) w.queue⟩

theorem sameTerms_quiet (now : Duration) (id : DocumentId) (timer : Debouncer.Timer) (w : Watch) :
    SameTerms w (w.quiet now id timer).1 := by
  unfold quiet
  split
  · exact .refl w
  · split
    · exact .refl w
    · exact (sameTerms_setDebouncer w id _).trans (sameTerms_fire now id _ _)

/-! ## Other settings -/

theorem sameTerms_scheduleAll (now : Duration) (ids : List DocumentId) (w : Watch) :
    SameTerms w (scheduleAll now ids w).1 := by
  induction ids generalizing w with
  | nil => exact .refl w
  | cons id r ih =>
    unfold scheduleAll
    split
    · exact ih w
    · exact (sameTerms_schedule now id _ w).trans (ih _)

/-- The documents that are scheduled anew when other settings are adopted. -/
def anew (options : WatchOptions) (config : Fingerprint) (w : Watch) : List DocumentId :=
  if w.store.config = config then
    if w.options.debounce = options.debounce then []
    else (w.debouncers.filter (·.2.isPending)).map (·.1)
  else (w.store.setConfig config).2.documents.map (·.id)

/-- A watch with other settings, before documents are scheduled anew. -/
def adopting (now : Duration) (options : WatchOptions) (config : Fingerprint) (w : Watch) :
    Watch :=
  let kept := if w.options.debounce = options.debounce then w else w.dropDebouncers fun _ => true
  { kept with
    options
    buckets :=
      if w.options.requestsPerMinute = options.requestsPerMinute then w.buckets
      else w.buckets ++ [.full options.requestsPerMinute now]
    service := w.service + 1
    queue := w.queue.setMaxAge options.maxQueueAge
    refused := none
    store := (w.store.setConfig config).2 }

theorem reconfigure_eq (now : Duration) (options : WatchOptions) (config : Fingerprint)
    (w : Watch) :
    w.reconfigure now options config =
      scheduleAll now (w.anew options config) (w.adopting now options config) := by
  have hfst : (w.store.setConfig config).1 = !decide (w.store.config = config) := by
    rw [DocumentStore.setConfig_fst, decide_not]
  unfold reconfigure anew adopting setConfig
  by_cases hd : w.options.debounce = options.debounce <;>
    by_cases hc : w.store.config = config <;>
    simp only [hd, hc, dropDebouncers, if_true, if_false, decide_true, decide_false,
      Bool.not_true, Bool.not_false] at hfst ⊢ <;>
    rw [hfst]

/-- Other settings take back that a key was refused. -/
theorem sameTerms_reconfigure (now : Duration) (options : WatchOptions) (config : Fingerprint)
    (w : Watch) :
    SameTerms { w with options, refused := none } (w.reconfigure now options config).1 := by
  rw [reconfigure_eq]
  refine SameTerms.trans ?_ (sameTerms_scheduleAll now _ _)
  unfold adopting
  dsimp only
  split <;> exact .of_eq rfl rfl rfl rfl

/-! ## The running analysis -/

theorem takeTurn_refused (now : Duration) (w : Watch) : (w.takeTurn now).1.refused = w.refused := by
  unfold takeTurn
  split
  · rfl
  · dsimp only
    split <;> rfl

theorem follow_refused (ticket : Nat) (a : Analysis) (next : Pursuit.Next (List Finding))
    (p : Pursuit) (w : Watch) : (w.follow ticket a next p).1.refused = w.refused := by
  cases next <;> rfl

theorem drawOn_eq {γ : Type} {i : Nat} {f : TokenBucket Float → γ × TokenBucket Float} {x : γ}
    (h : w.drawOn i f = some (x, w')) : ∃ buckets, w' = { w with buckets } := by
  unfold drawOn at h
  obtain ⟨b, -, hb⟩ := Option.map_eq_some_iff.mp h
  exact ⟨_, (congrArg Prod.snd hb).symm⟩

theorem goOn_refused (now : Duration) (ticket : Nat) (w : Watch) :
    (w.goOn now ticket).1.refused = w.refused := by
  unfold goOn
  split
  · split
    · rfl
    · split
      · rfl
      · rename_i hdraw
        obtain ⟨buckets, rfl⟩ := drawOn_eq hdraw
        exact follow_refused ticket _ _ _ _
  · rfl

theorem answered_refused (now : Duration) (ticket : Nat) (reply : Reply) (w : Watch) :
    (w.answered now ticket reply).1.refused = w.refused := by
  unfold answered
  split
  · split
    · rfl
    · split
      · rfl
      · exact follow_refused ticket _ _ _ w
  · rfl

/-! ## Ends of analyses -/

/-- The settings whose key was refused, once an analysis has ended. -/
def refusedBy (w : Watch) : Outcome → Option Fingerprint
  | .error (.failed (.auth _)) => some w.store.config
  | _ => w.refused

/-- The settings whose key was refused, after a step. -/
def refusedAfter (w : Watch) (e : Event) : Option Fingerprint :=
  if e.isReconfigured then none
  else
    match w.concluded? e with
    | some (_, o) => w.refusedBy o
    | none => w.refused

theorem noticeFor_auth (detail : String) (w : Watch) :
    (w.noticeFor (.auth detail)).2 = { w with refused := some w.store.config } := by
  unfold noticeFor
  by_cases h : w.refused = some w.store.config
  · simp only [if_pos h]
    rw [← h]
  · simp only [if_neg h]

theorem sameTerms_configSet (config : Fingerprint) (w : Watch) :
    SameTerms w (w.setConfig config).2 := .of_eq rfl rfl rfl rfl

theorem conclude_refused (now : Duration) (a : Analysis) (o : Outcome) (w : Watch) :
    (w.conclude now a o).1.refused = w.refusedBy o := by
  unfold conclude
  cases o with
  | ok findings =>
    dsimp only [verdict]
    split <;> rfl
  | error x =>
    cases x with
    | failed y =>
      cases y with
      | auth detail =>
        dsimp only [verdict]
        rw [if_neg (by simp), (sameTerms_fallBack now a _ _).refused, noticeFor_auth]
        rfl
      | canceled => rfl
      | _ => exact (sameTerms_fallBack now a _ _).refused
    | panicked => exact (sameTerms_fallBack now a _ _).refused
    | _ => rfl

theorem complete_refused (now : Duration) (ticket : Nat) (w : Watch) :
    (w.complete now ticket).1.refused = w.refusedAfter (.ran (.completion ticket)) := by
  have hafter : w.refusedAfter (.ran (.completion ticket)) =
      match (w.owed.find? (·.ticket = ticket)).bind (·.outcome) with
      | some o => w.refusedBy o
      | none => w.refused := by
    unfold refusedAfter concluded?
    dsimp only [Event.isReconfigured]
    cases (w.owed.find? (·.ticket = ticket)).bind (·.outcome) <;> rfl
  rw [hafter]
  unfold complete
  cases w.owed.find? (·.ticket = ticket) with
  | none => rfl
  | some o =>
    dsimp only [Option.bind_some]
    cases o.outcome with
    | none => rfl
    | some outcome => exact conclude_refused now o.analysis outcome _

/-- Other settings take back that a key was refused; the end of an analysis may say that
one was; nothing else touches it. -/
theorem refused_step (now : Duration) (e : Event) (w : Watch) :
    (w.step now e).1.refused = w.refusedAfter e := by
  cases e with
  | opened id content => exact (sameTerms_update now id content w).refused
  | changed id content => exact (sameTerms_update now id content w).refused
  | saved id => exact (sameTerms_save now id w).refused
  | closed id => exact (sameTerms_close now id w).refused
  | reconfigured options config => exact (sameTerms_reconfigure now options config w).refused
  | configSet config => rfl
  | shutDown => exact (sameTerms_shutDown w).refused
  | ran t =>
    cases t with
    | debounce id timer due =>
      show (w.run now (.debounce id timer due)).1.refused = w.refused
      unfold run
      dsimp only
      split
      · rfl
      · exact (sameTerms_quiet now id timer w).refused
    | worker => exact takeTurn_refused now w
    | work ticket => exact goOn_refused now ticket w
    | completion ticket => exact complete_refused now ticket w
  | answered ticket reply => exact answered_refused now ticket reply w

end Watch

end SmellWatch
