import SmellWatch.RemoteService
import SmellWatch.Rehearsal.Watching
/-! Calls on a remote service over a network of which only the answers are known. -/

namespace SmellWatch

/-- What a network does with a request, and what it is like afterwards. -/
abbrev Http.Network (σ : Type) := σ → Http.Request → Http.Exchange × σ

namespace RemoteService

/-- How long a call takes: until it is given up, if nothing comes, and else no time. -/
def latency (s : RemoteService) : Http.Exchange → Nat
  | .silent => s.settings.timeoutSeconds * 1000
  | _ => 0

/-- How the call for an analysis goes. -/
def call {σ : Type} (network : Http.Network σ) (s : RemoteService) (state : σ) (a : Analysis) :
    ServiceCall × σ :=
  match s.request a.request with
  | .error e => ({ reply := .returned (.error e) }, state)
  | .ok request =>
    let (x, state) := network state request
    let reply := match s.findings x with
      | .ok result => .returned result
      | .error _ => .panicked
    ({ reply, latency := s.latency x }, state)

end RemoteService

end SmellWatch
