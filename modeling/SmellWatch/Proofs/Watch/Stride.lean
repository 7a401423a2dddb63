import SmellWatch.Proofs.Watch.Stride.Settings
import SmellWatch.Proofs.Watch.Stride.Tasks
/-! What one step of a watch can do.

`stride_step` says that every step is of one of the kinds of `Stride`.  What holds in every run is
proved from it, kind by kind, without a look at `step` again. -/

namespace SmellWatch

namespace Watch

variable {now : Duration} {w : Watch} {e : Event}

/-- Every step is of one of the kinds. -/
theorem stride_step (now : Duration) (e : Event) (w : Watch) :
    Stride now w e (w.step now e).1 (w.step now e).2 := by
  cases e with
  | opened id content => exact stride_update rfl rfl rfl rfl
  | changed id content => exact stride_update rfl rfl rfl rfl
  | saved id => exact stride_save rfl rfl rfl
  | closed id => exact stride_close w id
  | reconfigured options config => exact stride_reconfigure options config w
  | configSet config => exact .configSet config rfl rfl rfl rfl rfl rfl
  | shutDown => exact stride_shutDown w
  | ran t =>
    cases t with
    | debounce id timer due =>
      unfold step run
      dsimp only
      split
      · exact .still rfl rfl (.inl rfl) (fun _ _ _ ha => .inl ha) rfl rfl (tacit_alarm _ _)
          fun _ _ ha => ha
      · exact stride_quiet timer ⟨timer, due, rfl⟩ rfl rfl
    | worker => exact stride_takeTurn rfl rfl
    | work ticket => exact stride_goOn ticket rfl rfl
    | completion ticket => exact stride_complete ticket w
  | answered ticket reply => exact stride_answered ticket reply rfl rfl

theorem Run.stride (r : Run) (now : Duration) (e : Event) :
    Stride now r.watch e (r.next now e).watch (r.next now e).effects := stride_step now e r.watch

/-- What is begun is an analysis of the text of a document that is open.  The cache has
nothing for this text, or a call for it waited; the service is asked unless its key is
noted as refused; and the document is saved, or the alarm of a call for its text rings that
is due. -/
theorem begins_step {a : Analysis} {remote : Bool}
    (h : begun? (w.step now e).2 = some (a, remote)) :
    ∃ d, w.store.get? a.document = some d ∧ IsOf a a.document d ∧
      (w.store.getCached? now a.document = none ∨ w.Pends a.document d.fingerprint) ∧
      (remote = false ↔ w.refused = some w.store.config) ∧
      w.Asks now e a.document d.fingerprint := by
  cases stride_step now e w with
  | begun id d b hopen _ hb _ _ _ _ _ _ hbegun _ _ hcause hremote hasked =>
    rw [hbegun] at h
    cases h
    obtain ⟨rfl, hof⟩ := hb
    exact ⟨d, hopen, ⟨rfl, hof⟩, hcause, by simp [hremote], hasked⟩
  | fellBack id d b findings hopen _ hb _ _ _ _ _ _ hfx _ hcause hrefused _ hasked =>
    rw [hfx] at h
    cases h
    obtain ⟨rfl, hof⟩ := hb
    exact ⟨d, hopen, ⟨rfl, hof⟩, hcause, by simp [hrefused], hasked⟩
  | still _ _ _ _ _ _ hfx => exact absurd h (hfx.not_begun a remote)
  | edited _ _ _ _ _ _ _ _ _ _ hfx => exact absurd h (hfx.not_begun a remote)
  | replayed _ _ _ _ _ _ _ _ _ _ _ _ _ _ hfx =>
    rw [hfx] at h
    cases h
  | turned _ _ _ _ _ _ hfx => exact absurd h (hfx.not_begun a remote)
  | answered _ _ _ _ _ _ _ _ _ _ _ _ _ hfx =>
    rw [hfx] at h
    cases h
  | lapsed _ _ _ _ _ _ _ _ _ _ hfx => exact absurd h (hfx.not_begun a remote)
  | closed _ _ _ _ _ _ hbegun _ =>
    rw [hbegun] at h
    cases h
  | reconfigured _ _ _ _ _ _ _ hfx => exact absurd h (hfx.not_begun a remote)
  | configSet _ _ _ _ _ _ hfx =>
    rw [hfx] at h
    cases h
  | shutDown _ _ _ _ hfx => exact absurd h (hfx.not_begun a remote)

/-- What a run begins. -/
theorem Run.begins {r : Run} {a : Analysis} {remote : Bool}
    (h : begun? (r.next now e).effects = some (a, remote)) :
    ∃ d, r.get? a.document = some d ∧ IsOf a a.document d ∧
      (r.watch.store.getCached? now a.document = none ∨
        r.watch.Pends a.document d.fingerprint) ∧
      (remote = false ↔ r.watch.refused = some r.watch.store.config) ∧
      r.watch.Asks now e a.document d.fingerprint := begins_step h

end Watch

end SmellWatch
