import HealthService.Proofs.Service.Access
import HealthService.Proofs.Trace.Continuation

/-!
# The layer for traces

A service within the layer gets the request with its trace context.  The layer writes this context into the
response and puts what the service logs meanwhile into a span, and leaves everything else alone.

* `Layer.marks_writeTrace` — a response with a context written into it shows this context, and is otherwise as
  it was.
* `Layer.entries_leaveTrace` — what is logged meanwhile is enclosed in the span of the context.
* `Layer.call_trace` — **what the layer changes and what it leaves alone**, around any service.
-/

namespace HealthService

open TraceContext

/-- What a response is in which a trace context has been written: it has one traceparent, which says what the
context says, and the state if there is one. Everything else is as it was. -/
structure Response.Marks (y x : Response) (t : TraceContext) : Prop where
  traceparent : y.headers.values "traceparent" = [Utf8.ofString t.traceparent]
  said : said y.headers = some (.ok { t with traceState := none })
  state : ∀ s, t.traceState = some s → y.headers.values "tracestate" = [Utf8.ofString s]
  stateless : t.traceState = none → y.headers.values "tracestate" = x.headers.values "tracestate"
  others : y.headers.withoutTrace = x.headers.withoutTrace
  status : y.status = x.status
  body : y.body = x.body

/-- How a call ends within the layer and outside it: an answer is marked, and everything else is passed on. -/
inductive Outcome.Marks (t : TraceContext) : Outcome → Outcome → Prop
  | answered {x y : Response} (h : y.Marks x t) : Marks t (.answered x) (.answered y)
  | other {o : Outcome} (h : ∀ x, o ≠ .answered x) : Marks t o o

namespace Layer

variable {σ : Type}

/-- A traceparent that has been written can be read. -/
theorem said_of_values {h : Headers} {t : TraceContext} (ht : t.WellFormed)
    (hvalues : h.values "traceparent" = [Utf8.ofString t.traceparent]) :
    said h = some (.ok { t with traceState := none }) := by
  have htext : Headers.text? (Utf8.ofString t.traceparent) = some t.traceparent :=
    Headers.text?_eq_some_iff.2 ⟨ht.isText, rfl⟩
  rw [said, hvalues, List.head?_cons, Option.bind_some, htext, Option.map_some, ht.parse_traceparent]

/-- **A response shows the context that has been written into it**, whatever it has shown before. -/
theorem marks_writeTrace (call : Call) (x : Response) :
    Response.Marks { x with headers := writeTrace call.context x.headers } x call.context := by
  have ht := call.wellFormed_context
  have hvalues := values_writeTrace_traceparent ht x.headers
  refine ⟨hvalues, said_of_values ht hvalues, ?_, ?_, withoutTrace_writeTrace _ _, rfl, rfl⟩
  · intro s hs
    exact values_writeTrace_of_state hs (call.isText_of_traceState hs) x.headers
  · intro hs
    exact values_writeTrace_of_stateless hs x.headers

/-- A reply that leaves the layer is marked. -/
theorem marks_leaveTrace (call : Call) (r : Reply) :
    Outcome.Marks call.context r.outcome (leaveTrace call.context call.ignored r).outcome := by
  obtain ⟨outcome, early, late, took⟩ := r
  cases outcome with
  | answered x => exact .answered (marks_writeTrace call x)
  | failed reason => exact .other nofun
  | expired => exact .other nofun
  | panicked payload atOnce => exact .other nofun
  | abandoned => exact .other nofun

theorem entries_leaveTrace (t : TraceContext) (entries : List Entry) (r : Reply) :
    (leaveTrace t entries r).early = entries ++ r.early ∧
      (leaveTrace t entries r).late = t.span.enclose r.late ∧ (leaveTrace t entries r).took = r.took := by
  obtain ⟨outcome, early, late, took⟩ := r
  cases outcome <;> exact ⟨rfl, rfl, rfl⟩

/-- **What the layer changes and what it leaves alone**, around any service and for any request.

* The service gets the request with its trace context, and what chance has not yet decided.
* An answer is marked with this context; any other end of the call is passed on as it is.
* What the service logs while the caller waits is enclosed in a span with the ids and flags of this
  context, and so are those of the answer; what it logs at once is not.
* The state of the service and the time that it takes are its own. -/
theorem call_trace (s : Service σ) (call : Call) (state : σ) :
    ∃ r out : Reply, ∃ state' : σ,
      s.call { call with trace := some call.context, draws := fun n => call.draws (n + 1) } state =
        (r, state') ∧
      (wrap .trace s).call call state = (out, state') ∧
      Outcome.Marks call.context r.outcome out.outcome ∧
      out.early = call.ignored ++ r.early ∧
      out.late = r.late.map (fun e => { e with spans :=
        ⟨call.context.traceId, call.context.spanId, call.context.traceFlags⟩ :: e.spans }) ∧
      out.took = r.took := by
  obtain ⟨hearly, hlate, htook⟩ := entries_leaveTrace call.context call.ignored
    (s.call { call with trace := some call.context, draws := fun n => call.draws (n + 1) } state).1
  exact ⟨_, leaveTrace call.context call.ignored _, _, rfl, rfl, marks_leaveTrace call _, hearly, hlate,
    htook⟩

end Layer
end HealthService
