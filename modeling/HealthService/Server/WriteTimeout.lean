import HealthService.Problem
import HealthService.Readiness.Evaluation
import HealthService.Server.Bind
import HealthService.Service.Basic

/-!
# Responses in time

A server does not let its clients wait for ever. When a response has not come within the write timeout,
nobody waits for the service any longer, and the client is told so. A response that comes just in time
wins. If something within the service took too long, the client is told the same, also by a server that
waits for ever.
-/

namespace HealthService

namespace Service

variable {σ : Type}

/-- The response to a request whose own response did not come in time. -/
def timeoutResponse : Response := (Problem.serviceUnavailable "response timed out").toResponse

/-- The reply when time is up. -/
def lateReply (r : Reply) (took : Duration) : Reply :=
  { r with
    outcome := .answered timeoutResponse
    late := r.late ++ [⟨.responseTimedOut, []⟩]
    took := took }

/-- Whether the caller of a service gives up before some time. -/
def givesUpBefore (c : Call) (now due : Time) : Bool := c.limit.any fun l => now.wakeUp l < due

/-- The service with a bound on the time that its replies may take; the state tells the time. -/
def within (s : Service σ) (timeout : Duration) (clock : σ → Time) : Service σ where
  call c state :=
    let now := clock state
    let deadline := now.sleepUntil timeout
    let due := now.wakeUp deadline
    let limit := if givesUpBefore c now due then c.limit else some deadline
    let (r, next) := s.call { c with limit := limit } state
    match r.outcome with
    | .abandoned => (if givesUpBefore c now due then r else lateReply r (due - now), next)
    | .expired => (lateReply r r.took, next)
    | _ => (r, next)

/-- The service with no bound on the time that its replies may take. -/
def unbounded (s : Service σ) : Service σ where
  call c state :=
    let (r, next) := s.call c state
    match r.outcome with
    | .expired => (lateReply r r.took, next)
    | _ => (r, next)

end Service

/-- The clock of the state that checks share. -/
def HealthState.clock (h : HealthState) : Time := h.pool.now

/-- The service of a server as its clients see it. -/
def Server.answering {σ : Type} (s : Server σ) (clock : σ → Time) : Service σ :=
  match s.settings.responseBound with
  | some timeout => s.service.within timeout clock
  | none => s.service.unbounded

end HealthService
