import SmellWatch.Proofs.Watch.Stride.Editor
/-! What other settings do to the calls that wait.

The documents are scheduled one after the other (`scheduleAll_spec`), all of them or those for
which a call waited; so no call for a text as it is gets lost (`awaits_reconfigure`). -/

namespace SmellWatch

namespace Watch

variable {now : Duration} {id other : DocumentId} {fp : Fingerprint} {w w₀ w₁ : Watch} {e : Event}

/-- A list of documents is scheduled: for those that are open a call waits then, and
what else waits goes on waiting. -/
theorem scheduleAll_spec (now : Duration) (ids : List DocumentId) (w : Watch) :
    let x := scheduleAll now ids w
    x.1.store = w.store ∧ x.1.owed = w.owed ∧ x.1.queue = w.queue ∧ Tacit x.2 ∧
    (∀ id d, w.store.get? id = some d → w.Awaits id d.fingerprint ∨ id ∈ ids →
      x.1.Awaits id d.fingerprint) ∧
    (∀ id fp, x.1.Pends id fp → w.Pends id fp ∨
      ∃ d, w.store.get? id = some d ∧ d.fingerprint = fp ∧ id ∈ ids) := by
  induction ids generalizing w with
  | nil =>
    refine ⟨rfl, rfl, rfl, tacit_nil, fun id d _ h => ?_, fun id fp h => .inl h⟩
    exact h.resolve_right (List.not_mem_nil)
  | cons i r ih =>
    unfold scheduleAll
    cases hi : w.store.get? i with
    | none =>
      obtain ⟨h1, h2, h3, h4, h5, h6⟩ := ih w
      refine ⟨h1, h2, h3, h4, fun id d hd h => h5 id d hd ?_, fun id fp h => ?_⟩
      · rcases h with h | h
        · exact .inl h
        · rcases List.mem_cons.mp h with rfl | h
          · rw [hi] at hd
            cases hd
          · exact .inr h
      · rcases h6 id fp h with h | ⟨d, hd, hfp, hin⟩
        · exact .inl h
        · exact .inr ⟨d, hd, hfp, List.mem_cons_of_mem _ hin⟩
    | some d₀ =>
      obtain ⟨h1, h2, h3, h4, h5, h6⟩ := ih (w.schedule now i d₀.fingerprint).1
      refine ⟨h1.trans (schedule_store _ _ _), h2.trans (schedule_owed _ _ _),
        h3.trans (schedule_queue _ _ _), (tacit_wake _).append h4, fun id d hd h => ?_,
        fun id fp h => ?_⟩
      · refine h5 id d ((schedule_store _ _ _).symm ▸ hd) ?_
        by_cases hid : id = i
        · subst hid
          rw [hi] at hd
          cases hd
          exact .inl (awaits_schedule_self _ _ _)
        · rcases h with h | h
          · exact .inl ((awaits_schedule_of_ne hid).mpr h)
          · exact .inr ((List.mem_cons.mp h).resolve_left hid)
      · rw [schedule_store] at h6
        rcases h6 id fp h with h | ⟨d, hd, hfp, hin⟩
        · rcases pends_of_setDebouncer h with ⟨rfl, p, hp, hfp⟩ | ⟨-, h⟩
          · cases hp
            exact .inr ⟨d₀, hi, hfp, List.mem_cons_self⟩
          · exact .inl h
        · exact .inr ⟨d, hd, hfp, List.mem_cons_of_mem _ hin⟩

theorem pends_of_mem_pending (h : id ∈ (w.debouncers.filter (·.2.isPending)).map (·.1)) :
    ∃ fp, w.Pends id fp := by
  obtain ⟨x, hx, rfl⟩ := List.mem_map.mp h
  obtain ⟨hx, hpending⟩ := List.mem_filter.mp hx
  obtain ⟨p, hp⟩ := Option.isSome_iff_exists.mp hpending
  exact ⟨p.value, x, p, hx, rfl, hp, rfl⟩

theorem mem_pending_of_awaits {id : DocumentId} (h : w.Awaits id fp) :
    id ∈ (w.debouncers.filter (·.2.isPending)).map (·.1) := by
  obtain ⟨d, p, hd, hp, -⟩ := h
  unfold debouncer? at hd
  obtain ⟨x, hx, rfl⟩ := Option.map_eq_some_iff.mp hd
  have hmem := List.mem_of_find?_eq_some hx
  have hid : x.1 = id := by simpa using List.find?_some hx
  refine List.mem_map.mpr ⟨x, List.mem_filter.mpr ⟨hmem, ?_⟩, hid⟩
  simp [Debouncer.isPending, hp]

/-- With another delay the calls that wait are taken away, to be made anew. -/
theorem awaits_adopting (now : Duration) (options : WatchOptions) (config : Fingerprint)
    (h : w.Awaits id fp) :
    (w.adopting now options config).Awaits id fp ∨
      id ∈ (w.debouncers.filter (·.2.isPending)).map (·.1) ∧
        w.options.debounce ≠ options.debounce := by
  by_cases hd : w.options.debounce = options.debounce
  · refine .inl (h.debouncers_eq ?_)
    unfold adopting
    rw [if_pos hd]
  · exact .inr ⟨mem_pending_of_awaits h, hd⟩

theorem pends_of_adopting {options : WatchOptions} {config : Fingerprint}
    (h : (w.adopting now options config).Pends id fp) : w.Pends id fp := by
  by_cases hd : w.options.debounce = options.debounce
  · refine h.debouncers_eq ?_
    unfold adopting
    rw [if_pos hd]
  · have hdrop : (w.dropDebouncers fun _ => true).Pends id fp := by
      refine h.debouncers_eq ?_
      unfold adopting
      rw [if_neg hd]
    exact (pends_of_dropDebouncers hdrop).2

/-- When other settings are adopted, a call that waits for a text waits on; and with settings
that mean something else one waits for every open document. -/
theorem awaits_reconfigure {d : DocumentEntry} (now : Duration) (options : WatchOptions)
    (config : Fingerprint) (hopen : w.store.get? id = some d)
    (h : w.Awaits id d.fingerprint ∨ w.store.config ≠ config) :
    (w.reconfigure now options config).1.Awaits id d.fingerprint := by
  have hopen' : (w.adopting now options config).store.get? id = some d :=
    (DocumentStore.get?_setConfig w.store config id).trans hopen
  have hlisted : id ∈ (w.store.setConfig config).2.documents.map (·.id) :=
    List.mem_map.mpr ⟨d, DocumentStore.mem_of_get? hopen', DocumentStore.id_of_get? hopen'⟩
  rw [reconfigure_eq]
  obtain ⟨-, -, -, -, hcalls, -⟩ :=
    scheduleAll_spec now (w.anew options config) (w.adopting now options config)
  refine hcalls id d hopen' ?_
  unfold anew
  by_cases hc : w.store.config = config
  · rcases awaits_adopting now options config
      (h.resolve_right (not_not_intro hc)) with h | ⟨hmem, hdelay⟩
    · exact .inl h
    · rw [if_pos hc, if_neg hdelay]
      exact .inr hmem
  · rw [if_neg hc]
    exact .inr hlisted

theorem stride_reconfigure (options : WatchOptions) (config : Fingerprint) (w : Watch) :
    Stride now w (.reconfigured options config) (w.reconfigure now options config).1
      (w.reconfigure now options config).2 := by
  have hcalls := fun id d (hd : w.store.get? id = some d) =>
    awaits_reconfigure now options config hd
  have howed : (w.adopting now options config).owed = w.owed := by
    unfold adopting
    dsimp only
    split <;> rfl
  rw [reconfigure_eq] at hcalls ⊢
  obtain ⟨h1, h2, h3, h4, -, h6⟩ :=
    scheduleAll_spec now (w.anew options config) (w.adopting now options config)
  refine .reconfigured config h1 (h2.trans howed) ⟨_, h3⟩ (fun id d hd h => hcalls id d hd (.inl h))
    (fun hne id d hd => hcalls id d hd (.inr hne)) rfl h4 ?_
  intro id fp h
  rcases h6 id fp h with h | ⟨d, hd, hfp, hin⟩
  · exact .inl (pends_of_adopting h)
  · refine .inr ⟨d, (DocumentStore.get?_setConfig w.store config id).symm.trans hd, hfp, ?_⟩
    unfold anew at hin
    split at hin
    · split at hin
      · exact absurd hin List.not_mem_nil
      · exact .inr (pends_of_mem_pending hin)
    · rename_i hne
      exact .inl hne

end Watch

end SmellWatch
