import HealthService.Check.Behaviour
import HealthService.Http.Message
import HealthService.Trace

/-!
# Services

A `Service` answers requests and has a state. A call comes in two parts: what happens at once, and
what happens while the caller waits for the answer. Events and panics are told apart by these parts,
because only the second part can be enclosed in a span.
-/

namespace HealthService

/-- A request with what is known of it. -/
structure Call where
  request : Request
  /-- The trace of the request, once somebody has looked for it. -/
  trace : Option TraceContext := none
  /-- What chance holds for ids that are still to be made. -/
  draws : Nat → TraceContext.Draw
  /-- How long the caller waits for the answer, if not forever. -/
  limit : Option Time := none

/-- How a call ends. -/
inductive Outcome where
  | answered (response : Response)
  | failed (reason : String)
  /-- Something within the service took too long. -/
  | expired
  /-- Panics, either at once or while the caller waits. -/
  | panicked (payload : Payload) (atOnce : Bool)
  /-- Nobody waited for the end. -/
  | abandoned
  deriving DecidableEq, Repr

/-- What a call brings. -/
structure Reply where
  outcome : Outcome
  /-- What was logged at once. -/
  early : List Entry := []
  /-- What was logged while the caller waited. -/
  late : List Entry := []
  /-- How long the caller waited. -/
  took : Duration := 0
  deriving DecidableEq, Repr

/-- All events in their order. -/
def Reply.entries (r : Reply) : List Entry := r.early ++ r.late

/-- Changes the response, if there is one. -/
def Reply.mapResponse (f : Response → Response) (r : Reply) : Reply :=
  match r.outcome with
  | .answered x => { r with outcome := .answered (f x) }
  | _ => r

/-- Answers requests with the help of a state. A service whose caller waits no longer than a limit stops
there. -/
structure Service (σ : Type) where
  call : Call → σ → Reply × σ

end HealthService
