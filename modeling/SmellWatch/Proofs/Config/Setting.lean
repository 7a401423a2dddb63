import SmellWatch.Proofs.Decimal.Widening
import SmellWatch.Proofs.Json.Merge
/-! The settings one by one.

A setting has its place in a record, a value in the settings, and it is read from what stands in its
place, or else it is the default (`Setting.inSection?`).  A record is read as the settings whose
values are those that are read, setting by setting (`ofSource?_eq_some_iff`).  What is written is
read again as the same value (`Setting.read?_write`). -/

namespace SmellWatch

open Decimal

/-- The parts of a record of settings. -/
inductive Section
  | provider
  | analysis
  | retry
deriving DecidableEq

inductive Setting
  | kind
  | model
  | baseUrl
  | apiKey
  | timeoutSeconds
  | maxTokens
  | debounceMillis
  | requestsPerMinute
  | maxQueueAgeSeconds
  | cacheMaxAgeSeconds
  | globs
  | minConfidence
  | rules
  | maxRateLimitAttempts
  | maxServerRetries
deriving DecidableEq

def Section.name : Section → String
  | provider => "provider"
  | analysis => "analysis"
  | retry => "retry"

namespace Setting

/-! ## Places and values -/

/-- The part in which a setting stands. -/
def part : Setting → Section
  | kind | model | baseUrl | apiKey | timeoutSeconds | maxTokens => .provider
  | debounceMillis | requestsPerMinute | maxQueueAgeSeconds | cacheMaxAgeSeconds | globs
  | minConfidence | rules => .analysis
  | maxRateLimitAttempts | maxServerRetries => .retry

/-- The key of a setting in its part. -/
def key : Setting → String
  | kind => "kind"
  | model => "model"
  | baseUrl => "base_url"
  | apiKey => "api_key"
  | timeoutSeconds => "timeout_seconds"
  | maxTokens => "max_tokens"
  | debounceMillis => "debounce_ms"
  | requestsPerMinute => "requests_per_minute"
  | maxQueueAgeSeconds => "max_queue_age_seconds"
  | cacheMaxAgeSeconds => "cache_max_age_seconds"
  | globs => "include"
  | minConfidence => "min_confidence"
  | rules => "rules"
  | maxRateLimitAttempts => "max_rate_limit_attempts"
  | maxServerRetries => "max_server_retries"

/-- What values a setting has. -/
def Value : Setting → Type
  | kind => Provider
  | model | baseUrl | apiKey => Option String
  | globs | rules => List String
  | minConfidence => Single
  | timeoutSeconds | maxTokens | debounceMillis | requestsPerMinute | maxQueueAgeSeconds
  | cacheMaxAgeSeconds | maxRateLimitAttempts | maxServerRetries => Nat

/-- The value of a setting. -/
def get (c : Config) : (s : Setting) → s.Value
  | kind => c.provider.kind
  | model => c.provider.model
  | baseUrl => c.provider.baseUrl
  | apiKey => c.provider.apiKey
  | timeoutSeconds => c.provider.timeoutSeconds
  | maxTokens => c.provider.maxTokens
  | debounceMillis => c.analysis.debounceMillis
  | requestsPerMinute => c.analysis.requestsPerMinute
  | maxQueueAgeSeconds => c.analysis.maxQueueAgeSeconds
  | cacheMaxAgeSeconds => c.analysis.cacheMaxAgeSeconds
  | globs => c.analysis.globs
  | minConfidence => c.analysis.minConfidence
  | rules => c.analysis.rules
  | maxRateLimitAttempts => c.retry.maxRateLimitAttempts
  | maxServerRetries => c.retry.maxServerRetries

/-- References to variables replaced, in the settings that may have some. -/
def expand (env : Environment) : (s : Setting) → s.Value → s.Value
  | model, v | baseUrl, v | apiKey, v => Option.map env.expand v
  | kind, v | timeoutSeconds, v | maxTokens, v | debounceMillis, v | requestsPerMinute, v
  | maxQueueAgeSeconds, v | cacheMaxAgeSeconds, v | globs, v | minConfidence, v | rules, v
  | maxRateLimitAttempts, v | maxServerRetries, v => v

variable {s : Setting} {c d : Config}

/-- Settings with the same values are the same. -/
theorem eq_of_get (h : ∀ s, get c s = get d s) : c = d := by
  obtain ⟨⟨_, _, _, _, _, _⟩, ⟨_, _, _, _, _, _, _⟩, ⟨_, _⟩⟩ := c
  obtain ⟨⟨_, _, _, _, _, _⟩, ⟨_, _, _, _, _, _, _⟩, ⟨_, _⟩⟩ := d
  cases h kind
  cases h model
  cases h baseUrl
  cases h apiKey
  cases h timeoutSeconds
  cases h maxTokens
  cases h debounceMillis
  cases h requestsPerMinute
  cases h maxQueueAgeSeconds
  cases h cacheMaxAgeSeconds
  cases h globs
  cases h minConfidence
  cases h rules
  cases h maxRateLimitAttempts
  cases h maxServerRetries
  rfl

theorem get_expand (env : Environment) (c : Config) (s : Setting) :
    get (c.expand env) s = s.expand env (get c s) := by
  cases s <;> rfl

/-- The values of the settings in a part are those of the part. -/
theorem get_of_part (c : Config) (s : Setting) :
    (s.part = .provider → get { provider := c.provider } s = get c s) ∧
    (s.part = .analysis → get { analysis := c.analysis } s = get c s) ∧
    (s.part = .retry → get { retry := c.retry } s = get c s) := by
  cases s <;> refine ⟨?_, ?_, ?_⟩ <;> intro h <;> first | rfl | cases h

/-! ## Reading -/

/-- How a setting is read. -/
def read? : (s : Setting) → JsonSource → Option s.Value
  | kind => Provider.ofSource? .json
  | model | baseUrl | apiKey => JsonSource.nullable? JsonSource.text?
  | globs | rules => JsonSource.list? JsonSource.text?
  | minConfidence => JsonSource.single?
  | timeoutSeconds | debounceMillis | maxQueueAgeSeconds | cacheMaxAgeSeconds =>
    JsonSource.longWord?
  | maxTokens | requestsPerMinute | maxRateLimitAttempts | maxServerRetries => JsonSource.word?

/-- A setting that is read from its part of a record; the default if it is not there. -/
def inSection? (s : Setting) (fields : Json.Fields) : Option s.Value :=
  match Json.find? s.key fields with
  | none => some (get {} s)
  | some v => s.read? (.ofValue v)

end Setting

/-! ## Reading a record -/

section Reading

variable {fields : Json.Fields}

/-- The part with a default of a record, as a setting is read. -/
theorem defaultPart?_ofFields {α : Type} (item? : JsonSource → Option α) (unset : α)
    (v : Option Json) : JsonSource.defaultPart? item? unset (v.map .ofValue) =
      match v with
      | none => some unset
      | some v => item? (.ofValue v) := by
  cases v <;> rfl

theorem optionPart?_ofFields {α : Type} (item? : JsonSource → Option α)
    (v : Option Json) : JsonSource.optionPart? item? (v.map .ofValue) =
      match v with
      | none => some none
      | some v => JsonSource.nullable? item? (.ofValue v) := by
  cases v <;> rfl

theorem ProviderSettings.ofSource?_eq_some_iff (h : (fields.map (·.1)).Nodup)
    {p : ProviderSettings} : ProviderSettings.ofSource? .json (.ofValue (.object fields)) = some p ↔
      ∀ s : Setting, s.part = .provider →
        s.inSection? fields = some (Setting.get { provider := p } s) := by
  unfold ProviderSettings.ofSource? JsonSource.ofValue JsonSource.partsBy?
  dsimp only
  rw [JsonSource.objectParts?_ofFields h (by decide)]
  simp only [ProviderSettings.fields, List.map_cons, List.map_nil, defaultPart?_ofFields,
    optionPart?_ofFields]
  constructor
  · intro hread s hs
    obtain ⟨kind, hkind, hread⟩ := Option.bind_eq_some_iff.mp hread
    obtain ⟨model, hmodel, hread⟩ := Option.bind_eq_some_iff.mp hread
    obtain ⟨baseUrl, hbaseUrl, hread⟩ := Option.bind_eq_some_iff.mp hread
    obtain ⟨apiKey, hapiKey, hread⟩ := Option.bind_eq_some_iff.mp hread
    obtain ⟨timeoutSeconds, htimeoutSeconds, hread⟩ := Option.bind_eq_some_iff.mp hread
    obtain ⟨maxTokens, hmaxTokens, hread⟩ := Option.bind_eq_some_iff.mp hread
    cases hread
    cases s with
    | kind => exact hkind
    | model => exact hmodel
    | baseUrl => exact hbaseUrl
    | apiKey => exact hapiKey
    | timeoutSeconds => exact htimeoutSeconds
    | maxTokens => exact hmaxTokens
    | _ => cases hs
  · intro hall
    refine Option.bind_eq_some_iff.mpr ⟨_, hall .kind rfl, ?_⟩
    refine Option.bind_eq_some_iff.mpr ⟨_, hall .model rfl, ?_⟩
    refine Option.bind_eq_some_iff.mpr ⟨_, hall .baseUrl rfl, ?_⟩
    refine Option.bind_eq_some_iff.mpr ⟨_, hall .apiKey rfl, ?_⟩
    refine Option.bind_eq_some_iff.mpr ⟨_, hall .timeoutSeconds rfl, ?_⟩
    exact Option.bind_eq_some_iff.mpr ⟨_, hall .maxTokens rfl, rfl⟩

theorem AnalysisSettings.ofSource?_eq_some_iff (h : (fields.map (·.1)).Nodup)
    {a : AnalysisSettings} : AnalysisSettings.ofSource? .json (.ofValue (.object fields)) = some a ↔
      ∀ s : Setting, s.part = .analysis →
        s.inSection? fields = some (Setting.get { analysis := a } s) := by
  unfold AnalysisSettings.ofSource? JsonSource.ofValue JsonSource.partsBy?
  dsimp only
  rw [JsonSource.objectParts?_ofFields h (by decide)]
  simp only [AnalysisSettings.fields, List.map_cons, List.map_nil, defaultPart?_ofFields]
  constructor
  · intro hread s hs
    obtain ⟨debounce, hdebounce, hread⟩ := Option.bind_eq_some_iff.mp hread
    obtain ⟨perMinute, hperMinute, hread⟩ := Option.bind_eq_some_iff.mp hread
    obtain ⟨queueAge, hqueueAge, hread⟩ := Option.bind_eq_some_iff.mp hread
    obtain ⟨cacheAge, hcacheAge, hread⟩ := Option.bind_eq_some_iff.mp hread
    obtain ⟨globs, hglobs, hread⟩ := Option.bind_eq_some_iff.mp hread
    obtain ⟨minConfidence, hminConfidence, hread⟩ := Option.bind_eq_some_iff.mp hread
    obtain ⟨hints, hhints, hread⟩ := Option.bind_eq_some_iff.mp hread
    cases hread
    cases s with
    | debounceMillis => exact hdebounce
    | requestsPerMinute => exact hperMinute
    | maxQueueAgeSeconds => exact hqueueAge
    | cacheMaxAgeSeconds => exact hcacheAge
    | globs => exact hglobs
    | minConfidence => exact hminConfidence
    | rules => exact hhints
    | _ => cases hs
  · intro hall
    refine Option.bind_eq_some_iff.mpr ⟨_, hall .debounceMillis rfl, ?_⟩
    refine Option.bind_eq_some_iff.mpr ⟨_, hall .requestsPerMinute rfl, ?_⟩
    refine Option.bind_eq_some_iff.mpr ⟨_, hall .maxQueueAgeSeconds rfl, ?_⟩
    refine Option.bind_eq_some_iff.mpr ⟨_, hall .cacheMaxAgeSeconds rfl, ?_⟩
    refine Option.bind_eq_some_iff.mpr ⟨_, hall .globs rfl, ?_⟩
    refine Option.bind_eq_some_iff.mpr ⟨_, hall .minConfidence rfl, ?_⟩
    exact Option.bind_eq_some_iff.mpr ⟨_, hall .rules rfl, rfl⟩

theorem RetrySettings.ofSource?_eq_some_iff (h : (fields.map (·.1)).Nodup)
    {r : RetrySettings} : RetrySettings.ofSource? .json (.ofValue (.object fields)) = some r ↔
      ∀ s : Setting, s.part = .retry →
        s.inSection? fields = some (Setting.get { retry := r } s) := by
  unfold RetrySettings.ofSource? JsonSource.ofValue JsonSource.partsBy?
  dsimp only
  rw [JsonSource.objectParts?_ofFields h (by decide)]
  simp only [RetrySettings.fields, List.map_cons, List.map_nil, defaultPart?_ofFields]
  constructor
  · intro hread s hs
    obtain ⟨attempts, hattempts, hread⟩ := Option.bind_eq_some_iff.mp hread
    obtain ⟨retries, hretries, hread⟩ := Option.bind_eq_some_iff.mp hread
    cases hread
    cases s with
    | maxRateLimitAttempts => exact hattempts
    | maxServerRetries => exact hretries
    | _ => cases hs
  · intro hall
    refine Option.bind_eq_some_iff.mpr ⟨_, hall .maxRateLimitAttempts rfl, ?_⟩
    exact Option.bind_eq_some_iff.mpr ⟨_, hall .maxServerRetries rfl, rfl⟩

/-- The settings that are read from a record with all of its parts. -/
theorem Config.ofSource?_eq_some_iff {parts : Section → Json.Fields} {c : Config}
    (h : (fields.map (·.1)).Nodup) (hparts : ∀ x, ((parts x).map (·.1)).Nodup)
    (hfound : ∀ x : Section, Json.find? x.name fields = some (.object (parts x))) :
    Config.ofSource? .json (.ofValue (.object fields)) = some c ↔
      ∀ s : Setting, s.inSection? (parts s.part) = some (Setting.get c s) := by
  have hprovider := hfound .provider
  have hanalysis := hfound .analysis
  have hretry := hfound .retry
  unfold Section.name at hprovider hanalysis hretry
  unfold Config.ofSource?
  rw [JsonSource.ofValue, JsonSource.partsBy?, JsonSource.objectParts?_ofFields h (by decide)]
  simp only [Config.fields, List.map_cons, List.map_nil, defaultPart?_ofFields, RecordField.defaulted,
    hprovider, hanalysis, hretry]
  constructor
  · intro hread s
    obtain ⟨p, hp, hread⟩ := Option.bind_eq_some_iff.mp hread
    obtain ⟨a, ha, hread⟩ := Option.bind_eq_some_iff.mp hread
    obtain ⟨r, hr, hread⟩ := Option.bind_eq_some_iff.mp hread
    cases hread
    cases hs : s.part with
    | provider =>
      rw [(ProviderSettings.ofSource?_eq_some_iff (hparts _)).mp hp s hs]
      exact congrArg some ((s.get_of_part ⟨p, a, r⟩).1 hs)
    | analysis =>
      rw [(AnalysisSettings.ofSource?_eq_some_iff (hparts _)).mp ha s hs]
      exact congrArg some ((s.get_of_part ⟨p, a, r⟩).2.1 hs)
    | retry =>
      rw [(RetrySettings.ofSource?_eq_some_iff (hparts _)).mp hr s hs]
      exact congrArg some ((s.get_of_part ⟨p, a, r⟩).2.2 hs)
  · intro hall
    have hp : ProviderSettings.ofSource? .json (.ofValue (.object (parts .provider))) =
        some c.provider := by
      refine (ProviderSettings.ofSource?_eq_some_iff (hparts _)).mpr fun s hs => ?_
      rw [← hs, hall s, (s.get_of_part c).1 hs]
    have ha : AnalysisSettings.ofSource? .json (.ofValue (.object (parts .analysis))) =
        some c.analysis := by
      refine (AnalysisSettings.ofSource?_eq_some_iff (hparts _)).mpr fun s hs => ?_
      rw [← hs, hall s, (s.get_of_part c).2.1 hs]
    have hr : RetrySettings.ofSource? .json (.ofValue (.object (parts .retry))) =
        some c.retry := by
      refine (RetrySettings.ofSource?_eq_some_iff (hparts _)).mpr fun s hs => ?_
      rw [← hs, hall s, (s.get_of_part c).2.2 hs]
    rw [hp, ha, hr]
    rfl

end Reading

/-! ## Writing -/

/-- How the value of a setting is written. -/
def Setting.write (c : Config) : Setting → Json
  | kind => .string c.provider.kind.name
  | model => .ofOption .string c.provider.model
  | baseUrl => .ofOption .string c.provider.baseUrl
  | apiKey => .ofOption .string c.provider.apiKey
  | timeoutSeconds => .nat c.provider.timeoutSeconds
  | maxTokens => .nat c.provider.maxTokens
  | debounceMillis => .nat c.analysis.debounceMillis
  | requestsPerMinute => .nat c.analysis.requestsPerMinute
  | maxQueueAgeSeconds => .nat c.analysis.maxQueueAgeSeconds
  | cacheMaxAgeSeconds => .nat c.analysis.cacheMaxAgeSeconds
  | globs => .strings c.analysis.globs
  | minConfidence => .ofDouble c.analysis.minConfidence.toDouble
  | rules => .strings c.analysis.rules
  | maxRateLimitAttempts => .nat c.retry.maxRateLimitAttempts
  | maxServerRetries => .nat c.retry.maxServerRetries

namespace Config

/-- The settings are written as a record of all parts, with each setting in its part. -/
theorem toJson_eq (c : Config) : ∃ fields, c.toJson = .object fields ∧ Json.Sorted fields ∧
    ∀ x : Section, ∃ part, Json.find? x.name fields = some (.object part) ∧ Json.Sorted part ∧
      ∀ s : Setting, s.part = x → Json.find? s.key part = some (s.write c) := by
  refine ⟨_, rfl, Json.Sorted.foldl_insert List.Pairwise.nil _, fun x => ?_⟩
  rw [Json.find?_foldl_insert]
  cases x with
  | provider =>
    refine ⟨_, rfl, Json.Sorted.foldl_insert List.Pairwise.nil _, fun s hs => ?_⟩
    rw [Json.find?_foldl_insert]
    cases s <;> first | rfl | cases hs
  | analysis =>
    -- the least confidence is written twice, and the number of 64 bits counts
    refine ⟨_, rfl, Json.Sorted.foldl_insert List.Pairwise.nil _, fun s hs => ?_⟩
    rw [Json.find?_foldl_insert]
    cases s <;> first | rfl | cases hs
  | retry =>
    refine ⟨_, rfl, Json.Sorted.foldl_insert List.Pairwise.nil _, fun s hs => ?_⟩
    rw [Json.find?_foldl_insert]
    cases s <;> first | rfl | cases hs

/-- Numbers of 32 bits have no more of them. -/
structure HasWords (c : Config) : Prop where
  maxTokens : c.provider.maxTokens < Nat.pow 2 32
  requestsPerMinute : c.analysis.requestsPerMinute < Nat.pow 2 32
  maxRateLimitAttempts : c.retry.maxRateLimitAttempts < Nat.pow 2 32
  maxServerRetries : c.retry.maxServerRetries < Nat.pow 2 32

end Config

namespace Setting

variable {c : Config}

/-- What is written is no object. -/
theorem isObject_write (c : Config) (s : Setting) : (s.write c).isObject = false := by
  cases s with
  | model => exact Json.isObject_ofOption _
  | baseUrl => exact Json.isObject_ofOption _
  | apiKey => exact Json.isObject_ofOption _
  | minConfidence => exact Json.isObject_ofDouble _
  | _ => rfl

theorem list?_strings (xs : List String) :
    JsonSource.list? JsonSource.text? (.ofValue (.strings xs)) = some xs := by
  unfold Json.strings JsonSource.ofValue JsonSource.list?
  dsimp only
  induction xs with
  | nil =>
    unfold JsonSource.ofValues
    rfl
  | cons x r ih =>
    rw [List.map_cons, JsonSource.ofValues, List.mapM_cons, ih]
    unfold JsonSource.ofValue
    rfl

theorem nullable?_text? (o : Option String) :
    JsonSource.nullable? JsonSource.text? (.ofValue (.ofOption .string o)) = some o := by
  cases o <;> rfl

theorem word?_nat {n : Nat} (h : n < Nat.pow 2 32) :
    JsonSource.word? (.ofValue (.nat n)) = some n := if_pos h

/-- What is written is read again as the same value, unless it is no finite number. -/
theorem read?_write (h : c.HasWords) (s : Setting)
    (hs : s = .minConfidence → c.analysis.minConfidence.isFinite = true) :
    s.read? (.ofValue (s.write c)) = some (get c s) := by
  cases s with
  | kind =>
    unfold write get
    cases c.provider.kind <;> rfl
  | model => exact nullable?_text? _
  | baseUrl => exact nullable?_text? _
  | apiKey => exact nullable?_text? _
  | timeoutSeconds => rfl
  | maxTokens => exact word?_nat h.maxTokens
  | debounceMillis => rfl
  | requestsPerMinute => exact word?_nat h.requestsPerMinute
  | maxQueueAgeSeconds => rfl
  | cacheMaxAgeSeconds => rfl
  | globs => exact list?_strings _
  | minConfidence =>
    unfold write Json.ofDouble
    rw [if_pos ((Single.isFinite_toDouble _).trans (hs rfl))]
    exact congrArg some (Single.toSingle_toDouble (hs rfl))
  | rules => exact list?_strings _
  | maxRateLimitAttempts => exact word?_nat h.maxRateLimitAttempts
  | maxServerRetries => exact word?_nat h.maxServerRetries

end Setting

end SmellWatch
