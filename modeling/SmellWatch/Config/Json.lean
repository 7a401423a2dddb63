import SmellWatch.Config.Settings
import SmellWatch.Fingerprint
import SmellWatch.Json.Printer
import SmellWatch.Json.Record
/-! Settings as JSON records, the fingerprint of what decides the meaning of a
result, and overlays.

* `Json.merge_empty`: an overlay without fields changes nothing. -/

namespace SmellWatch

open Decimal

/-! ## Writing -/

namespace ProviderSettings

def toJson (p : ProviderSettings) : Json :=
  .object [("kind", .string p.kind.name), ("model", .ofOption .string p.model),
    ("base_url", .ofOption .string p.baseUrl), ("api_key", .ofOption .string p.apiKey),
    ("timeout_seconds", .nat p.timeoutSeconds), ("max_tokens", .nat p.maxTokens)]

end ProviderSettings

namespace AnalysisSettings

def toJson (a : AnalysisSettings) : Json :=
  .object [("debounce_ms", .nat a.debounceMillis),
    ("requests_per_minute", .nat a.requestsPerMinute),
    ("max_queue_age_seconds", .nat a.maxQueueAgeSeconds),
    ("cache_max_age_seconds", .nat a.cacheMaxAgeSeconds), ("include", .strings a.globs),
    ("min_confidence", .ofSingle a.minConfidence), ("rules", .strings a.rules)]

end AnalysisSettings

namespace RetrySettings

def toJson (r : RetrySettings) : Json :=
  .object [("max_rate_limit_attempts", .nat r.maxRateLimitAttempts),
    ("max_server_retries", .nat r.maxServerRetries)]

end RetrySettings

/-! ## Reading -/

namespace Provider

/-- The provider with the name that is given. -/
def ofSource? (rules : RecordRules) (s : JsonSource) : Option Provider :=
  (s.choice? rules).bind ofName?

end Provider

namespace ProviderSettings

def fields : List RecordField :=
  [.defaulted "kind", .optionalIn "model", .optionalIn "base_url", .optionalIn "api_key",
    .defaulted "timeout_seconds", .defaulted "max_tokens"]

def ofSource? (rules : RecordRules) (s : JsonSource) : Option ProviderSettings :=
  match s.partsBy? rules fields with
  | some [kind, model, baseUrl, apiKey, timeoutSeconds, maxTokens] => do
    let unset : ProviderSettings := {}
    let kind ← JsonSource.defaultPart? (Provider.ofSource? rules) unset.kind kind
    let model ← JsonSource.optionPart? JsonSource.text? model
    let baseUrl ← JsonSource.optionPart? JsonSource.text? baseUrl
    let apiKey ← JsonSource.optionPart? JsonSource.text? apiKey
    let timeoutSeconds ←
      JsonSource.defaultPart? JsonSource.longWord? unset.timeoutSeconds timeoutSeconds
    let maxTokens ← JsonSource.defaultPart? JsonSource.word? unset.maxTokens maxTokens
    return { kind, model, baseUrl, apiKey, timeoutSeconds, maxTokens }
  | _ => none

end ProviderSettings

namespace AnalysisSettings

def fields : List RecordField :=
  [.defaulted "debounce_ms", .defaulted "requests_per_minute",
    .defaulted "max_queue_age_seconds", .defaulted "cache_max_age_seconds",
    .defaulted "include", .defaulted "min_confidence", .defaulted "rules"]

def ofSource? (rules : RecordRules) (s : JsonSource) : Option AnalysisSettings :=
  match s.partsBy? rules fields with
  | some [debounce, perMinute, queueAge, cacheAge, globs, minConfidence, hints] => do
    let unset : AnalysisSettings := {}
    let texts? := JsonSource.list? JsonSource.text?
    let debounceMillis ←
      JsonSource.defaultPart? JsonSource.longWord? unset.debounceMillis debounce
    let requestsPerMinute ←
      JsonSource.defaultPart? JsonSource.word? unset.requestsPerMinute perMinute
    let maxQueueAgeSeconds ←
      JsonSource.defaultPart? JsonSource.longWord? unset.maxQueueAgeSeconds queueAge
    let cacheMaxAgeSeconds ←
      JsonSource.defaultPart? JsonSource.longWord? unset.cacheMaxAgeSeconds cacheAge
    let globs ← JsonSource.defaultPart? texts? unset.globs globs
    let minConfidence ←
      JsonSource.defaultPart? JsonSource.single? unset.minConfidence minConfidence
    let hints ← JsonSource.defaultPart? texts? unset.rules hints
    return { debounceMillis, requestsPerMinute, maxQueueAgeSeconds, cacheMaxAgeSeconds,
             globs, minConfidence, rules := hints }
  | _ => none

end AnalysisSettings

namespace RetrySettings

def fields : List RecordField :=
  [.defaulted "max_rate_limit_attempts", .defaulted "max_server_retries"]

def ofSource? (rules : RecordRules) (s : JsonSource) : Option RetrySettings :=
  match s.partsBy? rules fields with
  | some [attempts, retries] => do
    let unset : RetrySettings := {}
    let maxRateLimitAttempts ←
      JsonSource.defaultPart? JsonSource.word? unset.maxRateLimitAttempts attempts
    let maxServerRetries ←
      JsonSource.defaultPart? JsonSource.word? unset.maxServerRetries retries
    return { maxRateLimitAttempts, maxServerRetries }
  | _ => none

end RetrySettings

namespace Config

def fields : List RecordField :=
  [.defaulted "provider", .defaulted "analysis", .defaulted "retry"]

def ofSource? (rules : RecordRules) (s : JsonSource) : Option Config :=
  match s.partsBy? rules fields with
  | some [provider, analysis, retry] => do
    let provider ← JsonSource.defaultPart? (ProviderSettings.ofSource? rules) {} provider
    let analysis ← JsonSource.defaultPart? (AnalysisSettings.ofSource? rules) {} analysis
    let retry ← JsonSource.defaultPart? (RetrySettings.ofSource? rules) {} retry
    return { provider, analysis, retry }
  | _ => none

/-- The settings as a value that an overlay can be laid over: keys in order, and a
number of 32 bits widened. -/
def toJson (c : Config) : Json :=
  let sorted := fun j : Json => match j with
    | .object fields => Json.ofFields fields
    | j => j
  let widened : AnalysisSettings → Json := fun a =>
    match a.toJson with
    | .object fields =>
      Json.ofFields (fields ++ [("min_confidence", .ofDouble a.minConfidence.toDouble)])
    | j => j
  .ofFields [("provider", sorted c.provider.toJson), ("analysis", widened c.analysis),
    ("retry", sorted c.retry.toJson)]

/-! ## Fingerprint -/

/-- What decides the meaning of a result: the service, the model, the hints and the
least confidence, but neither keys nor anything about pace. -/
def meaning (c : Config) : Json :=
  .object [("provider", .string c.provider.kind.name),
    ("model", .string c.provider.resolvedModel),
    ("base_url", .string c.provider.resolvedBaseUrl), ("rules", .strings c.analysis.rules),
    ("min_confidence", .ofSingle c.analysis.minConfidence)]

/-- The bytes that the fingerprint is taken of. -/
def meaningBytes (c : Config) : List UInt8 := Text.encode c.meaning.compact

def fingerprint (c : Config) : Fingerprint := .ofBytes c.meaningBytes

end Config

/-! ## Overlays -/

namespace Json

mutual

/-- One value laid over another: the fields of an object each over the field of the
same key, anything else in place of what was there. -/
def merge (base : Json) : Json → Json
  | .object overlay =>
    match base with
    | .object fields => .object (mergeFields fields overlay)
    | _ => .object overlay
  | v => v

def mergeFields (fields : Fields) : List (String × Json) → Fields
  | [] => fields
  | (k, v) :: r =>
    let merged := match find? k fields with
      | some old => merge old v
      | none => v
    mergeFields (insert k merged fields) r

end

theorem merge_empty (fields : Fields) : merge (.object fields) (.object []) = .object fields := by
  simp [merge, mergeFields]

end Json

namespace Config

/-- The settings with an overlay laid over them. -/
def mergedWith (env : Environment) (c : Config) (overlay : Json) : Option Config :=
  (ofSource? .json (.ofValue (Json.merge c.toJson overlay))).map (expand env)

end Config

end SmellWatch
