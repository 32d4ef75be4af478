import HealthService.Launch
import HealthService.Server.WriteTimeout

/-!
# Answering with what has been observed

Checks are pure, so somebody else has to ask the probed services first. `Program.startsChecks` says
whether a call needs that at all; `Program.answering` is the service once the replies are there.
-/

namespace HealthService

/-- After how long which reply came to each probe, if one came. -/
abbrev Observations := List (Option (Duration × HttpProbe.Reply))

namespace Program

/-- The checkers of the probes with what has been observed of them. -/
def checkers (p : Program) (seen : Observations) : List Checker :=
  p.probes.mapIdx fun i probe => probe.checker (seen[i]?).join false

/-- The service of the program with what has been observed of its probes. -/
def answering (p : Program) (self : Identity) (seen : Observations) : Service HealthState :=
  let service := p.config.service (p.checkers seen) p.metrics.isSome self
  { p.server with service := service }.answering HealthState.clock

/-- Whether a call starts any checks. -/
def startsChecks (p : Program) (self : Identity) (c : Call) (h : HealthState) : Bool :=
  h.pool.tasks.length < ((p.answering self []).call c h).2.pool.tasks.length

/-- How long it makes sense to wait for replies, if not forever: no longer than the tightest bound on
the checks and on the response. -/
def patience (p : Program) : Option Duration :=
  let budgets := p.config.health.budgets
  let bounds := [ServerSettings.bound? budgets.overall, budgets.checkBound,
    p.server.settings.responseBound]
  (bounds.filterMap id).min?

end Program

end HealthService
