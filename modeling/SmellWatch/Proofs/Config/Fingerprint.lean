import SmellWatch.Proofs.Config.Meaning
import SmellWatch.Proofs.Config.Setting
/-! What the fingerprint of the settings depends on.

The fingerprint is taken of bytes that say what the settings mean.  Settings have the same bytes
exactly when they ask the same service for the same model at the same address, with the same hints
and the same least confidence; and of the settings as they are written, five alone decide that
(`meaningBytes_eq_iff`). -/

namespace SmellWatch

open Decimal

/-- Whether a setting has a say in what a result means: not the key, and nothing about pace,
age, length or the files that are looked at. -/
def Setting.DecidesMeaning : Setting → Prop
  | .kind | .model | .baseUrl | .rules | .minConfidence => True
  | .apiKey | .timeoutSeconds | .maxTokens | .debounceMillis | .requestsPerMinute
  | .maxQueueAgeSeconds | .cacheMaxAgeSeconds | .globs | .maxRateLimitAttempts
  | .maxServerRetries => False

namespace Config

variable {c d : Config}

/-- A result under the one settings is a result under the others: model and address count as
they are resolved, and the least confidence bit by bit. -/
structure MeansSame (c d : Config) : Prop where
  kind : c.provider.kind = d.provider.kind
  model : c.provider.resolvedModel = d.provider.resolvedModel
  baseUrl : c.provider.resolvedBaseUrl = d.provider.resolvedBaseUrl
  rules : c.analysis.rules = d.analysis.rules
  minConfidence : c.analysis.minConfidence = d.analysis.minConfidence

instance : Decidable (c.MeansSame d) :=
  decidable_of_iff
    (c.provider.kind = d.provider.kind ∧
      c.provider.resolvedModel = d.provider.resolvedModel ∧
      c.provider.resolvedBaseUrl = d.provider.resolvedBaseUrl ∧
      c.analysis.rules = d.analysis.rules ∧
      c.analysis.minConfidence = d.analysis.minConfidence)
    ⟨fun ⟨kind, model, baseUrl, rules, minConfidence⟩ =>
      ⟨kind, model, baseUrl, rules, minConfidence⟩,
     fun h => ⟨h.kind, h.model, h.baseUrl, h.rules, h.minConfidence⟩⟩

/-- The record says nothing else. -/
theorem MeansSame.meaning_eq (h : c.MeansSame d) : c.meaning = d.meaning := by
  unfold meaning
  rw [h.kind, h.model, h.baseUrl, h.rules, h.minConfidence]

theorem MeansSame.meaningBytes_eq (h : c.MeansSame d) : c.meaningBytes = d.meaningBytes := by
  unfold meaningBytes
  rw [h.meaning_eq]

/-- Model and address are resolved from the service and what is set for them. -/
theorem meansSame_of_get (h : ∀ s : Setting, s.DecidesMeaning → s.get c = s.get d) :
    c.MeansSame d := by
  have hkind : c.provider.kind = d.provider.kind := h .kind trivial
  have hmodel : c.provider.model = d.provider.model := h .model trivial
  have hurl : c.provider.baseUrl = d.provider.baseUrl := h .baseUrl trivial
  refine ⟨hkind, ?_, ?_, h .rules trivial, h .minConfidence trivial⟩
  · unfold ProviderSettings.resolvedModel
    rw [hkind, hmodel]
  · unfold ProviderSettings.resolvedBaseUrl
    rw [hkind, hurl]

/-- The fingerprint is taken of the same bytes exactly for settings that mean the same, and
settings that agree where the meaning is decided have one fingerprint, whatever the others are. -/
theorem meaningBytes_eq_iff (hc : c.analysis.minConfidence.isFinite = true)
    (hd : d.analysis.minConfidence.isFinite = true) :
    (c.meaningBytes = d.meaningBytes ↔ c.MeansSame d) ∧
      ((∀ s : Setting, s.DecidesMeaning → s.get c = s.get d) →
        c.fingerprint = d.fingerprint) := by
  constructor
  · constructor
    · intro h
      obtain ⟨kind, model, baseUrl, rules, minConfidence⟩ := eq_of_meaningBytes hc hd h
      exact ⟨kind, model, baseUrl, rules, minConfidence⟩
    · exact MeansSame.meaningBytes_eq
  · intro h
    unfold fingerprint
    rw [(meansSame_of_get h).meaningBytes_eq]

/-- Settings with blanks and slashes around what is the default anyway. -/
def spelledOut : Config where
  provider :=
    { model := some " gpt-4o-mini\n", baseUrl := some "https://api.openai.com/v1//",
      apiKey := some "s3cret", timeoutSeconds := 5 }
  retry := { maxServerRetries := 9 }

/-- Settings with one hint that looks like two on paper. -/
def oneHint : Config where
  analysis := { rules := ["errors\",\"style"] }

/-- Settings with these two hints. -/
def twoHints : Config where
  analysis := { rules := ["errors", "style"] }

/-- What is spelled out has the bytes of the default, and hints are told apart. -/
theorem meaningBytes_spelledOut :
    spelledOut.analysis.minConfidence.isFinite = true ∧
      oneHint.analysis.minConfidence.isFinite = true ∧
      twoHints.analysis.minConfidence.isFinite = true ∧
      ({} : Config).analysis.minConfidence.isFinite = true ∧
      spelledOut ≠ {} ∧ spelledOut.meaningBytes = meaningBytes {} ∧
      oneHint.meaningBytes ≠ twoHints.meaningBytes ∧
      fingerprint { twoHints with retry := { maxServerRetries := 9 } } = twoHints.fingerprint := by
  refine ⟨by decide, by decide, by decide, by decide, by decide, ?_, ?_, ?_⟩
  · exact (meaningBytes_eq_iff (by decide) (by decide)).1.mpr (by decide +kernel)
  · intro h
    have hrules := ((meaningBytes_eq_iff (by decide) (by decide)).1.mp h).rules
    exact absurd hrules (by decide)
  · refine (meaningBytes_eq_iff (by decide) (by decide)).2 ?_
    intro s hs
    cases s <;> first | rfl | exact hs.elim

end Config

end SmellWatch
