import SmellWatch.Http.Exchange
import SmellWatch.ModelAnswer
import SmellWatch.Product
import SmellWatch.Prompt
import SmellWatch.RemoteService.Completion
import SmellWatch.Watch.Options
/-! A remote service that analyzes documents: what it is asked, and what its reply
means.

A key is needed by most services, and without encryption only the own machine is
asked. What goes wrong is always a `RemoteError`. -/

namespace SmellWatch

structure RemoteService where
  settings : ServiceSettings
  base : Url
deriving DecidableEq

namespace RemoteService

/-- The service at the address that is set. -/
def ofSettings (s : ServiceSettings) : Except RemoteError RemoteService :=
  match Url.parse? s.baseUrl with
  | some base => .ok ⟨s, base⟩
  | none => .error (.other ("invalid base_url: " ++ s.baseUrl))

/-- The name for a reader. -/
def name (s : RemoteService) : String := s.settings.provider.name ++ ":" ++ s.settings.model

/-- Whether the service is on the own machine. -/
def allowsPlainHttp (s : RemoteService) : Bool := s.base.host.any Url.Host.isLoopback

/-! ## Requests -/

/-- Where requests go. -/
def endpoint (s : RemoteService) : String :=
  s.settings.baseUrl ++ match s.settings.provider with
    | .claude => "/messages"
    | .openai | .ollama => "/chat/completions"

def messageJson (role content : String) : Json :=
  .ofFields [("role", .string role), ("content", .string content)]

def body (s : RemoteService) (r : AnalysisRequest) : Json :=
  let question := messageJson "user" (Prompt.question r)
  .ofFields <|
    [("model", .string s.settings.model), ("max_tokens", .nat s.settings.maxTokens)] ++
    match s.settings.provider with
    | .claude => [("system", .string Prompt.task), ("messages", .array [question])]
    | .openai | .ollama =>
      [("temperature", .nat 0), ("messages", .array [messageJson "system" Prompt.task, question])]

/-- The headers that carry the key. -/
def keyHeaders (s : RemoteService) : Except RemoteError (List Http.Header) :=
  match s.settings.apiKey, s.settings.provider.keyVariable? with
  | none, some missing => .error (.auth (missing ++ " is not set"))
  | none, none => .ok []
  | some key, _ =>
    match s.settings.provider with
    | .claude => .ok [⟨"x-api-key", key.secret⟩, ⟨"anthropic-version", "2023-06-01"⟩]
    | .openai | .ollama => .ok [⟨"authorization", "Bearer " ++ key.secret⟩]

def commonHeaders : List Http.Header :=
  [⟨"content-type", "application/json"⟩, ⟨"user-agent", Product.name ++ "/" ++ Product.version⟩]

/-- Whether a request may go to an address. -/
def mayReach (s : RemoteService) (url : Url) : Bool :=
  url.scheme = "https" || (url.scheme = "http" && s.allowsPlainHttp)

/-- The request for an analysis. A missing key is noticed before anything else. -/
def request (s : RemoteService) (r : AnalysisRequest) : Except RemoteError Http.Request := do
  let headers := (← s.keyHeaders) ++ commonHeaders
  let some url := Url.parse? s.endpoint | throw (.other "builder error")
  if !s.mayReach url then throw (.other "builder error: URL scheme is not allowed")
  if !headers.all (Http.isSendable ·.value) then
    throw (.other "builder error: failed to parse header value")
  return { url, headers, body := s.body r }

/-! ## Replies -/

/-- The answer of the model in a reply that is a success. -/
def answerText (s : RemoteService) (reply : String) : Except RemoteError String :=
  match s.settings.provider with
  | .claude => Completion.ofBlocks reply
  | .openai | .ollama => Completion.ofChoices reply

/-- The findings in a reply. -/
def findingsIn (s : RemoteService) (reply : Http.Reply) :
    Except WaitError (Except RemoteError (List Finding)) :=
  let r := reply.proper
  if Http.isInterim r.status then
    .ok (.error (.other "error sending request: connection closed before the reply was complete"))
  else if !Http.isSuccess r.status then
    (RemoteError.ofReply r.status r.headers (Http.cappedText r.pieces)).map .error
  else if r.broken then .ok (.error (.other "error decoding response body"))
  else .ok ((s.answerText (Http.text r.pieces)).bind ModelAnswer.findings)

/-- What an analysis yields, by what came of its request. -/
def findings (s : RemoteService) :
    Http.Exchange → Except WaitError (Except RemoteError (List Finding))
  | .replied reply => s.findingsIn reply
  | .silent => .ok (.error .timeout)
  | .failed reason => .ok (.error (.other reason))

end RemoteService

end SmellWatch
