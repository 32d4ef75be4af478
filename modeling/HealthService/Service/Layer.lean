import HealthService.Auth.Credentials
import HealthService.Problem
import HealthService.Service.Basic

/-!
# Layers

A layer is put around a service and changes what goes in and out: it turns panics into responses,
puts requests into traces, logs them, or keeps strangers out. `Layer.stack` puts several of them
around a service, the first one outermost.
-/

namespace HealthService

/-- What can be put around a service. -/
inductive Layer where
  /-- Turns panics into responses. -/
  | recovery
  /-- Puts requests into traces. -/
  | trace
  /-- Logs requests. -/
  | logger
  /-- Keeps strangers out. -/
  | auth (credentials : Credentials)
  deriving DecidableEq, Repr

namespace Layer

variable {σ : Type}

/-! ## Recovery -/

/-- The response to a request that ended in a panic. -/
def panicResponse : Response := (Problem.internalServerError "internal server error").toResponse

/-- The event that tells of a panic. -/
def panicEntry (q : Request) (payload : Payload) : Entry :=
  ⟨.panicRecovered payload.message q.method q.path, []⟩

/-- A reply in which a panic has become a response. -/
def recover (q : Request) (r : Reply) : Reply :=
  match r.outcome with
  | .panicked payload true =>
    { r with outcome := .answered panicResponse, early := r.early ++ [panicEntry q payload] }
  | .panicked payload false =>
    { r with outcome := .answered panicResponse, late := r.late ++ [panicEntry q payload] }
  | _ => r

/-! ## Traces -/

/-- Writes a trace into headers, as far as its texts are values of headers; a state that the trace does not
have is left alone. -/
def writeTrace (t : TraceContext) (h : Headers) : Headers :=
  (h.insert? "traceparent" (Headers.value? t.traceparent)).insert? "tracestate"
    (t.traceState.bind Headers.value?)

/-- The call with its trace, and what is logged of it. -/
def enterTrace (c : Call) : Call × TraceContext × List Entry :=
  let (t, entries) := TraceContext.ofHeaders c.request.headers (c.draws 0)
  ({ c with trace := some t, draws := fun n => c.draws (n + 1) }, t, entries)

/-- A reply within a trace: later events are enclosed in its span, and a response tells of it. -/
def leaveTrace (t : TraceContext) (entries : List Entry) (r : Reply) : Reply :=
  { r with early := entries ++ r.early, late := t.span.enclose r.late }.mapResponse fun x =>
    { x with headers := writeTrace t x.headers }

/-! ## Logging -/

/-- The event that tells of a request and its response. -/
def requestEntry (q : Request) (x : Response) (took : Duration) : Entry :=
  ⟨.request q.method q.path x.status took ((q.remote.map Endpoint.print).getD "")
    ((q.headers.firstText? "user-agent").getD ""), []⟩

/-- A reply whose response has been logged. -/
def logResponse (q : Request) (r : Reply) : Reply :=
  match r.outcome with
  | .answered x => { r with late := r.late ++ [requestEntry q x r.took] }
  | _ => r

/-! ## Access -/

/-- The response to a stranger. -/
def unauthorized (credentials : Credentials) : Response :=
  let x := (Problem.unauthorized "authentication required").toResponse
  { x with headers := x.headers.insert "www-authenticate" credentials.challenge }

/-! ## Stacks -/

/-- A service within a layer. -/
def wrap (layer : Layer) (s : Service σ) : Service σ where
  call c state :=
    match layer with
    | .recovery =>
      let (r, state) := s.call c state
      (recover c.request r, state)
    | .trace =>
      let (inner, t, entries) := enterTrace c
      let (r, state) := s.call inner state
      (leaveTrace t entries r, state)
    | .logger =>
      let (r, state) := s.call c state
      (logResponse c.request r, state)
    | .auth credentials =>
      if credentials.admits (c.request.headers.first? "authorization") then s.call c state
      else ({ outcome := .answered (unauthorized credentials) }, state)

/-- A service within several layers, the first one outermost. -/
def stack (layers : List Layer) (s : Service σ) : Service σ := layers.foldr wrap s

end Layer

end HealthService
