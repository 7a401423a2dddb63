import SmellWatch.ApiKey
import SmellWatch.Decimal.Binary
import SmellWatch.Environment
import SmellWatch.Provider
import SmellWatch.Text.Quoted
/-! The settings: which service to ask, how often, and how hard to try.

Defaults apply where nothing is set. Model, address and key may be blank, which is
as good as unset. -/

namespace SmellWatch

open Decimal

structure ProviderSettings where
  kind : Provider := .default
  model : Option String := none
  baseUrl : Option String := none
  apiKey : Option String := none
  timeoutSeconds : Nat := 30
  maxTokens : Nat := 2048
deriving DecidableEq, Repr

def defaultRules : List String := ["errors", "concurrency", "design", "complexity", "style"]

structure AnalysisSettings where
  debounceMillis : Nat := 500
  requestsPerMinute : Nat := 10
  maxQueueAgeSeconds : Nat := 30
  cacheMaxAgeSeconds : Nat := 3600
  /-- Globs of the files to analyze; none of them means every file. -/
  globs : List String := []
  /-- Findings with less confidence are dropped. -/
  minConfidence : Single := 0
  /-- What a model is told to look for. -/
  rules : List String := defaultRules
deriving DecidableEq, Repr

structure RetrySettings where
  /-- Calls in all, when the service asks for patience. -/
  maxRateLimitAttempts : Nat := 3
  /-- Further calls after a failure of the service. -/
  maxServerRetries : Nat := 2
deriving DecidableEq, Repr

structure Config where
  provider : ProviderSettings := {}
  analysis : AnalysisSettings := {}
  retry : RetrySettings := {}
deriving DecidableEq, Repr

namespace ProviderSettings

def resolvedModel (p : ProviderSettings) : String :=
  (p.model.bind Text.nonBlank?).getD p.kind.defaultModel

/-- The text without slashes at its end. -/
def dropSlashes (s : String) : String :=
  String.ofList (s.toList.reverse.dropWhile (· = '/')).reverse

def resolvedBaseUrl (p : ProviderSettings) : String :=
  dropSlashes ((p.baseUrl.bind Text.nonBlank?).getD p.kind.defaultBaseUrl)

/-- The key that is set, or else the one in the provider's variable. -/
def resolvedApiKey (env : Environment) (p : ProviderSettings) : Option ApiKey :=
  match p.apiKey.bind ApiKey.ofText? with
  | some key => some key
  | none => (p.kind.keyVariable?.bind env.get?).bind ApiKey.ofText?

/-- References to variables replaced by what they stand for. -/
def expand (env : Environment) (p : ProviderSettings) : ProviderSettings :=
  { p with
    model := p.model.map env.expand
    baseUrl := p.baseUrl.map env.expand
    apiKey := p.apiKey.map env.expand }

def shownOption : Option String → String
  | none => "None"
  | some s => "Some(" ++ Text.quoted s ++ ")"

/-- The settings for a reader; a key is not shown. -/
def shown (p : ProviderSettings) : String :=
  "ProviderConfig \x7b kind: " ++ p.kind.display ++ ", model: " ++ shownOption p.model ++
  ", base_url: " ++ shownOption p.baseUrl ++
  ", api_key: " ++ Text.quoted (if p.apiKey.isSome then "[REDACTED]" else "None") ++
  s!", timeout_seconds: {p.timeoutSeconds}, max_tokens: {p.maxTokens} " ++ "\x7d"

end ProviderSettings

namespace Config

def expand (env : Environment) (c : Config) : Config :=
  { c with provider := c.provider.expand env }

end Config

end SmellWatch
