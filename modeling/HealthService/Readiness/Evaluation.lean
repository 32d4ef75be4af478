import HealthService.Check.Pool
import HealthService.Metrics.Basic
import HealthService.Readiness.Budgets
import HealthService.Readiness.Response

/-!
# Evaluating readiness

To find out whether the service is ready, all checks are run at the same time, in a context that is
derived from the caller's. The evaluation waits for the last of them, even if every deadline has
passed, and lists their results in the order of the checkers. If some of them panic, the evaluation
panics with the payload of the first of these in the list.

However it ends, and also if the caller does not wait for its end, the evaluation cancels the context
it has made, so that checks that are still waiting stop.
-/

namespace HealthService

/-- Finds out whether a service is ready. -/
structure Readiness where
  checkers : List Checker
  budgets : Budgets := .standard
  version : String := ""
  environment : String := ""
  /-- Whether checks are counted. -/
  metered : Bool := false

/-- The state of a service that its checks share. -/
structure HealthState where
  pool : Pool := {}
  metrics : Metrics := {}

/-- How an evaluation ends. -/
inductive Verdict where
  | response (r : ReadyResponse)
  | panic (payload : Payload)
  /-- Nobody waited for its end. -/
  | abandoned

namespace Readiness

/-- The names of the checkers. -/
def names (r : Readiness) : List String := r.checkers.map Checker.name

/-- The context in which the checks are run. -/
def derive (r : Readiness) (p : Pool) (parent : Context) : Pool × Context :=
  let (contexts, ctx) :=
    if r.budgets.overall = 0 then p.contexts.child parent
    else p.contexts.withTimeout parent p.now r.budgets.overall
  ({ p with contexts := contexts }, ctx)

/-- Starts all checks. -/
def startAll (r : Readiness) (p : Pool) (ctx : Context) : Pool :=
  r.checkers.foldl (fun p c => p.start ctx r.budgets.checkBound c) p

/-- The results of checks in their order up to the first one that panicked, and its payload. A check
that has not ended counts like one that panicked. -/
def collect : List Task → List (CheckResult × Duration) × Option Payload
  | [] => ([], none)
  | t :: ts =>
    match t.progress with
    | .returned result elapsed =>
      let (rest, panic) := collect ts
      ((result, elapsed) :: rest, panic)
    | .panicked payload => ([], some payload)
    | .running _ => ([], some .other)

/-- Counts results, if that is wanted. -/
def count (r : Readiness) (m : Metrics) (results : List (CheckResult × Duration)) : Metrics :=
  if r.metered then results.foldl (fun m (x, elapsed) => m.record x.name x.status elapsed) m else m

/-- The event that tells of a response. -/
def event (x : ReadyResponse) : Event :=
  if x.status.isOk then .readinessOk x.checks.length else .readinessFailed x.failed

/-- The response that lists some results. -/
def respond (r : Readiness) (results : List CheckResult) : ReadyResponse where
  status := Status.aggregate (results.map CheckResult.status)
  checks := results
  version := r.version
  environment := r.environment

/-- What follows when all checks have ended. -/
def conclude (r : Readiness) (m : Metrics) (tasks : List Task) : Verdict × Metrics × List Entry :=
  let (results, panic) := collect tasks
  let m := r.count m results
  match panic with
  | some payload => (.panic payload, m, [])
  | none =>
    let x := r.respond (results.map Prod.fst)
    (.response x, if r.metered then m.setReady x.status else m, [⟨event x, []⟩])

/-- Runs all checks once. The caller waits no longer than the limit, if there is one. -/
def evaluate (r : Readiness) (parent : Context) (limit : Option Time) (h : HealthState) :
    Verdict × HealthState × List Entry :=
  let first := h.pool.tasks.length
  let (p, ctx) := r.derive h.pool parent
  let p := (r.startAll p ctx).run (·.hasEndedFrom first) limit
  let ended := p.hasEndedFrom first
  let p := { p with contexts := p.contexts.cancel ctx }
  if ended then
    let (verdict, m, entries) := r.conclude h.metrics (p.tasks.drop first)
    (verdict, ⟨p, m⟩, entries)
  else (.abandoned, ⟨p, h.metrics⟩, [])

end Readiness

end HealthService
