import HealthService.Liveness
import HealthService.Readiness.Evaluation
import HealthService.Render
import HealthService.Problem
import HealthService.Service.Basic

/-!
# The health handler

Two routes tell whether the process is alive and whether the service is ready. They can be asked with
GET, or with HEAD for the same answer without its body.
-/

namespace HealthService

/-- Answers on the two routes. -/
structure HealthHandler where
  live : Liveness
  ready : Readiness

namespace HealthHandler

/-- Where a request leads. -/
inductive Route where
  | live
  | ready
  | notAllowed
  | unknown
  deriving DecidableEq, Repr

/-- The route of a request. -/
def routeOf (q : Request) : Route :=
  if q.path ≠ liveRoute ∧ q.path ≠ readyRoute then .unknown
  else if q.method ≠ "GET" ∧ q.method ≠ "HEAD" then .notAllowed
  else if q.path = liveRoute then .live
  else .ready

/-- The response where there is no route. -/
def notFound (q : Request) : Response :=
  ((Problem.notFound ("no route for " ++ q.path)).withInstance q.path).toResponse

/-- The response to a method that the route does not know. -/
def notAllowed (q : Request) : Response :=
  let x := (Problem.methodNotAllowed (q.method ++ " is not allowed on " ++ q.path)).toResponse
  { x with headers := x.headers.insert "allow" (Utf8.ofString "GET, HEAD") }

/-- The response as far as the method wants it. -/
def forMethod (q : Request) (x : Response) : Response :=
  if q.method = "HEAD" then { x with body := [] } else x

/-- The reply once readiness has been evaluated. -/
def replyReady (q : Request) (verdict : Verdict) (entries : List Entry) (took : Duration) : Reply :=
  match verdict with
  | .response r =>
    let (x, more) := renderReady r
    { outcome := .answered (forMethod q x), late := entries ++ more, took := took }
  | .panic payload => { outcome := .panicked payload false, late := entries, took := took }
  | .abandoned => { outcome := .abandoned, late := entries, took := took }

/-- Answers a request. -/
def handle (h : HealthHandler) (c : Call) (s : HealthState) : Reply × HealthState :=
  let q := c.request
  match routeOf q with
  | .unknown => ({ outcome := .answered (notFound q) }, s)
  | .notAllowed => ({ outcome := .answered (notAllowed q) }, s)
  | .live =>
    let (x, entries) := renderLive (h.live.respond s.pool.now)
    ({ outcome := .answered (forMethod q x), late := entries }, s)
  | .ready =>
    let (contexts, root) := s.pool.contexts.background
    let (verdict, t, entries) :=
      h.ready.evaluate root c.limit { s with pool := { s.pool with contexts := contexts } }
    (replyReady q verdict entries (t.pool.now - s.pool.now), t)

/-- The handler as a service. -/
def service (h : HealthHandler) : Service HealthState := ⟨h.handle⟩

/-! ## Building -/

/-- The names that have occurred before, in their order. -/
def duplicates : List String → List String → List String
  | _, [] => []
  | seen, n :: ns =>
    let rest := duplicates (n :: seen) ns
    if seen.contains n then n :: rest else rest

/-- What is logged when a handler is built. -/
def buildEntries (r : Readiness) : List Entry :=
  (duplicates [] r.names).map (fun n => ⟨.duplicateChecker n, []⟩) ++
    [⟨.handlerConfigured r.checkers.length r.budgets.overall r.budgets.perCheck, []⟩]

end HealthHandler

end HealthService
