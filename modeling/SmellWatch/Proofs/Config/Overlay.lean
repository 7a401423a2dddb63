import SmellWatch.Config.Text
import SmellWatch.Proofs.Config.Setting
/-! What overlays make of settings.

An overlay names the settings for which it has an entry (`Setting.entry?`).  Settings are written,
merged with the overlay and read again, so each of them gets what its entry says, or else what it was
(`mergedWith_eq_some_iff`).  Then references to variables are replaced, also in values in which they
were replaced before.  So only what is named changes exactly if replacing them again changes no other
value, and if the least confidence is a finite number or is named (`changesOnlyNamed_iff`).  There
are settings that change although nothing is named (`not_changesOnlyNamed_referring`). -/

namespace SmellWatch

open Decimal

/-! ## Numbers of 32 bits in a text -/

section Words

variable {rules : RecordRules} {v : JsonSource} {n : Nat}

theorem JsonSource.word?_lt (h : JsonSource.word? v = some n) : n < Nat.pow 2 32 := by
  unfold JsonSource.word? at h
  split at h
  · obtain ⟨hlt, hn⟩ := Option.ite_none_right_eq_some.mp h
    cases hn
    exact hlt
  · cases h

/-- What holds of the default and of all that is read holds of the part of a record. -/
theorem JsonSource.of_defaultPart? {α : Type} {item? : JsonSource → Option α} {unset x : α}
    {part : Option JsonSource} (P : α → Prop) (h : defaultPart? item? unset part = some x)
    (hunset : P unset) (hitem : ∀ v x, item? v = some x → P x) : P x := by
  cases part with
  | none =>
    cases h
    exact hunset
  | some v => exact hitem v x h

theorem ProviderSettings.word_of_ofSource? {p : ProviderSettings}
    (h : ProviderSettings.ofSource? rules v = some p) : p.maxTokens < Nat.pow 2 32 := by
  unfold ProviderSettings.ofSource? at h
  split at h
  · obtain ⟨kind, -, h⟩ := Option.bind_eq_some_iff.mp h
    obtain ⟨model, -, h⟩ := Option.bind_eq_some_iff.mp h
    obtain ⟨baseUrl, -, h⟩ := Option.bind_eq_some_iff.mp h
    obtain ⟨apiKey, -, h⟩ := Option.bind_eq_some_iff.mp h
    obtain ⟨timeoutSeconds, -, h⟩ := Option.bind_eq_some_iff.mp h
    obtain ⟨maxTokens, hmaxTokens, h⟩ := Option.bind_eq_some_iff.mp h
    cases h
    exact JsonSource.of_defaultPart? (· < Nat.pow 2 32) hmaxTokens (by decide)
      fun _ _ => JsonSource.word?_lt
  · cases h

theorem AnalysisSettings.word_of_ofSource? {a : AnalysisSettings}
    (h : AnalysisSettings.ofSource? rules v = some a) : a.requestsPerMinute < Nat.pow 2 32 := by
  unfold AnalysisSettings.ofSource? at h
  split at h
  · obtain ⟨debounce, -, h⟩ := Option.bind_eq_some_iff.mp h
    obtain ⟨perMinute, hperMinute, h⟩ := Option.bind_eq_some_iff.mp h
    obtain ⟨queueAge, -, h⟩ := Option.bind_eq_some_iff.mp h
    obtain ⟨cacheAge, -, h⟩ := Option.bind_eq_some_iff.mp h
    obtain ⟨globs, -, h⟩ := Option.bind_eq_some_iff.mp h
    obtain ⟨minConfidence, -, h⟩ := Option.bind_eq_some_iff.mp h
    obtain ⟨hints, -, h⟩ := Option.bind_eq_some_iff.mp h
    cases h
    exact JsonSource.of_defaultPart? (· < Nat.pow 2 32) hperMinute (by decide)
      fun _ _ => JsonSource.word?_lt
  · cases h

theorem RetrySettings.words_of_ofSource? {r : RetrySettings}
    (h : RetrySettings.ofSource? rules v = some r) :
    r.maxRateLimitAttempts < Nat.pow 2 32 ∧ r.maxServerRetries < Nat.pow 2 32 := by
  unfold RetrySettings.ofSource? at h
  split at h
  · obtain ⟨attempts, hattempts, h⟩ := Option.bind_eq_some_iff.mp h
    obtain ⟨retries, hretries, h⟩ := Option.bind_eq_some_iff.mp h
    cases h
    exact ⟨JsonSource.of_defaultPart? (· < Nat.pow 2 32) hattempts (by decide)
        fun _ _ => JsonSource.word?_lt,
      JsonSource.of_defaultPart? (· < Nat.pow 2 32) hretries (by decide)
        fun _ _ => JsonSource.word?_lt⟩
  · cases h

theorem Config.hasWords_of_ofSource? {c : Config} (h : Config.ofSource? rules v = some c) :
    c.HasWords := by
  unfold Config.ofSource? at h
  split at h
  · obtain ⟨p, hp, h⟩ := Option.bind_eq_some_iff.mp h
    obtain ⟨a, ha, h⟩ := Option.bind_eq_some_iff.mp h
    obtain ⟨r, hr, h⟩ := Option.bind_eq_some_iff.mp h
    cases h
    have hp := JsonSource.of_defaultPart? (fun p : ProviderSettings => p.maxTokens < Nat.pow 2 32)
      hp (by decide) fun _ _ => ProviderSettings.word_of_ofSource?
    have ha := JsonSource.of_defaultPart?
      (fun a : AnalysisSettings => a.requestsPerMinute < Nat.pow 2 32)
      ha (by decide) fun _ _ => AnalysisSettings.word_of_ofSource?
    have hr := JsonSource.of_defaultPart? (fun r : RetrySettings =>
      r.maxRateLimitAttempts < Nat.pow 2 32 ∧ r.maxServerRetries < Nat.pow 2 32)
      hr (by decide) fun _ _ => RetrySettings.words_of_ofSource?
    exact ⟨hp, ha, hr.1, hr.2⟩
  · cases h

theorem Config.hasWords_of_parse? {env : Environment} {text : String} {c : Config}
    (h : Config.parse? env text = some c) : c.HasWords := by
  obtain ⟨d, hd, rfl⟩ := Option.map_eq_some_iff.mp h
  obtain ⟨source, -, hd⟩ := Option.bind_eq_some_iff.mp hd
  have hwords := Config.hasWords_of_ofSource? hd
  exact ⟨hwords.maxTokens, hwords.requestsPerMinute, hwords.maxRateLimitAttempts,
    hwords.maxServerRetries⟩

end Words

/-! ## What overlays name -/

namespace Setting

variable {s : Setting} {overlay : Json.Fields}

/-- What an overlay has for a setting. -/
def entry? (s : Setting) (overlay : Json.Fields) : Option Json :=
  (Json.find? s.part.name overlay).bind (Json.get? s.key)

/-- The value that an overlay names for a setting. -/
def named? (s : Setting) (overlay : Json.Fields) : Option s.Value :=
  (s.entry? overlay).bind fun v => s.read? (.ofValue v)

theorem named?_of_no_entry (h : s.entry? overlay = none) : s.named? overlay = none := by
  unfold named?
  rw [h]
  rfl

end Setting

/-- Each key of an overlay stands once, its parts are objects, and what it has for a setting can be
read as a value of that. -/
structure IsOverlay (overlay : Json.Fields) : Prop where
  keys : (overlay.map (·.1)).Nodup
  parts : ∀ (x : Section) v, Json.find? x.name overlay = some v →
    ∃ part : Json.Fields, v = .object part ∧ (part.map (·.1)).Nodup
  values : ∀ (s : Setting) v, s.entry? overlay = some v → (s.read? (.ofValue v)).isSome = true

namespace Config

variable {env : Environment} {c d : Config} {overlay : Json.Fields}

/-- The settings with these values. -/
def ofSettings (f : (s : Setting) → s.Value) : Config where
  provider := ⟨f .kind, f .model, f .baseUrl, f .apiKey, f .timeoutSeconds, f .maxTokens⟩
  analysis := ⟨f .debounceMillis, f .requestsPerMinute, f .maxQueueAgeSeconds,
    f .cacheMaxAgeSeconds, f .globs, f .minConfidence, f .rules⟩
  retry := ⟨f .maxRateLimitAttempts, f .maxServerRetries⟩

@[simp] theorem get_ofSettings (f : (s : Setting) → s.Value) (s : Setting) :
    Setting.get (ofSettings f) s = f s := by
  cases s <;> rfl

/-- An overlay changes what it names and nothing else. -/
def ChangesOnlyNamed (env : Environment) (c : Config) (overlay : Json.Fields) : Prop :=
  ∃ d, c.mergedWith env (.object overlay) = some d ∧ ∀ s : Setting,
    (s.entry? overlay = none → s.get d = s.get c) ∧
    ∀ x, s.named? overlay = some x → s.get d = s.expand env x

/-! ## Merging -/

/-- The record of the settings with an overlay laid over it: what the overlay has for a setting, or
else what was written. -/
theorem merge_toJson (c : Config) (h : IsOverlay overlay) :
    ∃ (fields : Json.Fields) (parts : Section → Json.Fields),
      Json.merge c.toJson (.object overlay) = .object fields ∧ Json.Sorted fields ∧
      (∀ x : Section, Json.find? x.name fields = some (.object (parts x))) ∧
      (∀ x, Json.Sorted (parts x)) ∧
      ∀ s : Setting, Json.find? s.key (parts s.part) =
        some ((s.entry? overlay).getD (s.write c)) := by
  obtain ⟨base, hbase, hsorted, hparts⟩ := c.toJson_eq
  have hmerged : ∀ x : Section, ∃ part,
      Json.find? x.name (Json.mergeFields base overlay) = some (.object part) ∧ Json.Sorted part ∧
      ∀ s : Setting, s.part = x →
        Json.find? s.key part = some ((s.entry? overlay).getD (s.write c)) := by
    intro x
    obtain ⟨below, hbelow, hkeys, hwritten⟩ := hparts x
    rw [Json.find?_mergeFields h.keys, hbelow]
    cases hover : Json.find? x.name overlay with
    | none =>
      refine ⟨below, rfl, hkeys, fun s hs => ?_⟩
      unfold Setting.entry?
      rw [hs, hover]
      exact hwritten s hs
    | some v =>
      obtain ⟨above, rfl, hnodup⟩ := h.parts x v hover
      refine ⟨Json.mergeFields below above, ?_, hkeys.mergeFields above, fun s hs => ?_⟩
      · dsimp only
        rw [Json.merge]
      · rw [Json.find?_mergeFields hnodup, hwritten s hs]
        unfold Setting.entry?
        rw [hs, hover]
        show _ = some ((Json.find? s.key above).getD _)
        cases Json.find? s.key above with
        | none => rfl
        | some v => exact congrArg some (Json.merge_of_not_object (Setting.isObject_write c s) v)
  choose parts hfound hkeys hvalues using hmerged
  refine ⟨_, parts, ?_, hsorted.mergeFields overlay, hfound, hkeys, fun s => hvalues _ s rfl⟩
  rw [hbase, Json.merge]

theorem mergedWith_eq_some_iff (h : IsOverlay overlay) :
    c.mergedWith env (.object overlay) = some d ↔ ∃ e : Config, e.expand env = d ∧
      ∀ s : Setting, s.read? (.ofValue ((s.entry? overlay).getD (s.write c))) = some (s.get e) := by
  obtain ⟨fields, parts, hmerge, hsorted, hfound, hkeys, hvalues⟩ := c.merge_toJson h
  have hread : ∀ e, ofSource? .json (.ofValue (.object fields)) = some e ↔ ∀ s : Setting,
      s.read? (.ofValue ((s.entry? overlay).getD (s.write c))) = some (s.get e) := by
    intro e
    rw [ofSource?_eq_some_iff hsorted.nodup (fun x => (hkeys x).nodup) hfound]
    refine forall_congr' fun s => ?_
    unfold Setting.inSection?
    rw [hvalues s]
  unfold mergedWith
  rw [hmerge, Option.map_eq_some_iff]
  exact exists_congr fun e => (and_congr_left fun _ => hread e).trans and_comm

/-- What stands for a setting is read as what is named, or else as what the setting was. -/
theorem read?_entry (hc : c.HasWords) (h : IsOverlay overlay) (s : Setting)
    (hs : s = .minConfidence →
      c.analysis.minConfidence.isFinite = true ∨ (s.entry? overlay).isSome = true) :
    s.read? (.ofValue ((s.entry? overlay).getD (s.write c))) =
      some ((s.named? overlay).getD (s.get c)) := by
  unfold Setting.named?
  cases hentry : s.entry? overlay with
  | none =>
    refine Setting.read?_write hc s fun hmin => (hs hmin).resolve_right fun hsome => ?_
    rw [hentry] at hsome
    cases hsome
  | some v =>
    obtain ⟨x, hx⟩ := Option.isSome_iff_exists.mp (h.values s v hentry)
    rw [Option.getD_some, Option.bind_some, hx]
    rfl

/-- Settings with an overlay are those that are named and those that were, with references to
variables replaced; there are none if the least confidence can neither be written nor is named. -/
theorem mergedWith_eq (env : Environment) (hc : c.HasWords) (h : IsOverlay overlay) :
    c.mergedWith env (.object overlay) =
      if c.analysis.minConfidence.isFinite = true ∨
          (Setting.minConfidence.entry? overlay).isSome = true then
        some ((ofSettings fun s => (s.named? overlay).getD (s.get c)).expand env)
      else none := by
  split
  · rename_i hmin
    refine (mergedWith_eq_some_iff h).mpr ⟨_, rfl, fun s => ?_⟩
    rw [get_ofSettings]
    exact read?_entry hc h s fun hs => hs ▸ hmin
  · rename_i hmin
    rw [not_or] at hmin
    refine Option.eq_none_iff_forall_ne_some.mpr fun d hd => ?_
    obtain ⟨e, -, hread⟩ := (mergedWith_eq_some_iff h).mp hd
    have hminConfidence := hread .minConfidence
    rw [Option.not_isSome_iff_eq_none.mp hmin.2] at hminConfidence
    -- `null` is written for what is no finite number, and no number is read from it
    have hnull : Setting.minConfidence.write c = .null :=
      if_neg (by rw [Single.isFinite_toDouble]; exact hmin.1)
    rw [Option.getD_none, hnull] at hminConfidence
    cases hminConfidence

theorem isOverlay_nil : IsOverlay [] where
  keys := List.nodup_nil
  parts := nofun
  values := nofun

/-- Replacing references changes settings unless it changes none of them. -/
theorem expand_eq_self_iff (env : Environment) (c : Config) :
    c.expand env = c ↔ ∀ s : Setting, s.expand env (s.get c) = s.get c := by
  constructor
  · intro hsame s
    rw [← Setting.get_expand, hsame]
  · intro hkept
    refine Setting.eq_of_get fun s => ?_
    rw [Setting.get_expand]
    exact hkept s

/-- What is named changes, and the rest is kept in which replacing references changes nothing. -/
theorem of_mergedWith (hmerged : c.mergedWith env (.object overlay) =
      some ((ofSettings fun s => (s.named? overlay).getD (s.get c)).expand env)) :
    c.ChangesOnlyNamed env overlay ↔
      ∀ s : Setting, s.entry? overlay = none → s.expand env (s.get c) = s.get c := by
  unfold ChangesOnlyNamed
  rw [hmerged]
  constructor
  · rintro ⟨d, ⟨⟩, hsame⟩ s hnone
    have hkept := (hsame s).1 hnone
    rw [Setting.get_expand, get_ofSettings, Setting.named?_of_no_entry hnone] at hkept
    exact hkept
  · intro hkept
    refine ⟨_, rfl, fun s => ?_⟩
    rw [Setting.get_expand, get_ofSettings]
    refine ⟨fun hnone => ?_, fun x hx => ?_⟩
    · rw [Setting.named?_of_no_entry hnone]
      exact hkept s hnone
    · rw [hx]
      rfl

/-- Settings of a text with an overlay: what comes of them, when only what is named changes, and when
an overlay that names nothing changes nothing. -/
theorem changesOnlyNamed_iff {text : String} (hc : parse? env text = some c)
    (h : IsOverlay overlay) :
    (c.mergedWith env (.object overlay) =
      if c.analysis.minConfidence.isFinite = true ∨
          (Setting.minConfidence.entry? overlay).isSome = true then
        some ((ofSettings fun s => (s.named? overlay).getD (s.get c)).expand env)
      else none) ∧
    (c.ChangesOnlyNamed env overlay ↔
      (c.analysis.minConfidence.isFinite = true ∨
        (Setting.minConfidence.entry? overlay).isSome = true) ∧
      ∀ s : Setting, s.entry? overlay = none → s.expand env (s.get c) = s.get c) ∧
    (c.mergedWith env (.object []) = some c ↔ c.analysis.minConfidence.isFinite = true ∧
      ∀ s : Setting, s.expand env (s.get c) = s.get c) := by
  have hwords := hasWords_of_parse? hc
  have hmerged := mergedWith_eq env hwords h
  have hnothing := mergedWith_eq env hwords isOverlay_nil
  refine ⟨hmerged, ?_, ?_⟩
  · split at hmerged
    · rename_i hmin
      exact (of_mergedWith hmerged).trans (and_iff_right hmin).symm
    · rename_i hmin
      refine iff_of_false ?_ fun hboth => hmin hboth.1
      rintro ⟨d, hd, -⟩
      cases hmerged.symm.trans hd
  · rw [hnothing]
    split
    · rename_i hmin
      have hfinite : c.analysis.minConfidence.isFinite = true := hmin.resolve_right nofun
      refine Iff.trans ?_ (and_iff_right hfinite).symm
      show some (c.expand env) = some c ↔ _
      rw [Option.some_inj]
      exact expand_eq_self_iff env c
    · rename_i hmin
      exact iff_of_false nofun fun hboth => hmin (.inl hboth.1)

/-- Another provider is named; the model that a variable stands for is kept. -/
theorem changesOnlyNamed_otherProvider :
    ∃ c, parse? ⟨[("A", "x")]⟩ "[provider]\nmodel = \"$\x7bA\x7d\"\n" = some c ∧
      IsOverlay [("provider", .object [("kind", .string "claude")])] ∧
      c.ChangesOnlyNamed ⟨[("A", "x")]⟩ [("provider", .object [("kind", .string "claude")])] := by
  have hparse : parse? ⟨[("A", "x")]⟩ "[provider]\nmodel = \"$\x7bA\x7d\"\n" =
      some { provider := { model := some "x" } } := by decide +kernel
  have hoverlay : IsOverlay [("provider", .object [("kind", .string "claude")])] := by
    refine ⟨by decide, fun x v hv => ?_, fun s v hv => ?_⟩
    · cases x <;> cases hv
      exact ⟨_, rfl, by decide⟩
    · cases s <;> cases hv
      rfl
  refine ⟨_, hparse, hoverlay, (changesOnlyNamed_iff hparse hoverlay).2.1.mpr ⟨?_, fun s hs => ?_⟩⟩
  · exact .inl (by decide +kernel)
  · cases s with
    | model =>
      show some (Environment.expand _ "x") = some "x"
      decide +kernel
    | _ => rfl

/-- The model refers to a variable whose value looks like a reference. -/
theorem not_changesOnlyNamed_referring :
    ∃ c, parse? ⟨[("A", "$\x7bB\x7d"), ("B", "x")]⟩ "[provider]\nmodel = \"$\x7bA\x7d\"\n" = some c ∧
      ¬ c.ChangesOnlyNamed ⟨[("A", "$\x7bB\x7d"), ("B", "x")]⟩ [] := by
  refine ⟨{ provider := { model := some "$\x7bB\x7d" } }, by decide +kernel, ?_⟩
  rintro ⟨d, hd, hsame⟩
  have hmerged : ({ provider := { model := some "$\x7bB\x7d" } } : Config).mergedWith
      ⟨[("A", "$\x7bB\x7d"), ("B", "x")]⟩ (.object []) =
        some { provider := { model := some "x" } } := by decide +kernel
  cases hmerged.symm.trans hd
  have hmodel : some "x" = some "$\x7bB\x7d" := (hsame .model).1 rfl
  exact absurd hmodel (by decide)

end Config

end SmellWatch
