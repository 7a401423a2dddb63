import SmellWatch.Finding
import SmellWatch.Pacing.RetryPolicy
/-! What the settings mean for the watch and for the remote service. -/

namespace SmellWatch

open Decimal

/-- How a watch is paced and what it lets through. -/
structure WatchOptions where
  /-- How long a document must be left alone before it is analyzed. -/
  debounce : Duration
  requestsPerMinute : Nat
  maxQueueAge : Duration
  cacheMaxAge : Duration
  retry : RetryPolicy
  rules : List String
  minConfidence : Single
deriving DecidableEq, Repr

namespace WatchOptions

def ofConfig (c : Config) : WatchOptions :=
  { debounce := Duration.ofMillis c.analysis.debounceMillis
    requestsPerMinute := c.analysis.requestsPerMinute
    maxQueueAge := Duration.ofSeconds c.analysis.maxQueueAgeSeconds
    cacheMaxAge := Duration.ofSeconds c.analysis.cacheMaxAgeSeconds
    retry := RetryPolicy.ofSettings c.retry
    rules := c.analysis.rules
    minConfidence := c.analysis.minConfidence }

/-- The findings that one is sure enough of. -/
def filter (o : WatchOptions) (findings : List Finding) : List Finding :=
  findings.filter fun f => o.minConfidence.atMost f.confidence

end WatchOptions

/-- How to reach the remote service. -/
structure ServiceSettings where
  provider : Provider
  model : String
  baseUrl : String
  apiKey : Option ApiKey
  timeoutSeconds : Nat
  maxTokens : Nat
deriving DecidableEq

namespace ServiceSettings

/-- A call may take one second at least. -/
def ofConfig (env : Environment) (c : Config) : ServiceSettings :=
  let p := c.provider
  { provider := p.kind
    model := p.resolvedModel
    baseUrl := p.resolvedBaseUrl
    apiKey := p.resolvedApiKey env
    timeoutSeconds := max 1 p.timeoutSeconds
    maxTokens := p.maxTokens }

end ServiceSettings

end SmellWatch
