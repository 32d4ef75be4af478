import HealthService.Proofs.Readiness.Accounting
import HealthService.Proofs.Service.Answers

/-!
# What the service replies

What the layers for recovery, traces and logging get from the rest of the service is plain: a response
that says nothing of traces, a panic, or nothing at all.  With it come no events but one that tells of
readiness, and whatever the checks have logged by themselves.  These layers seal it: they add the trace
and the event that tells of the request, unless a check has panicked.

* `guarded_within` — **the rest of the service replies plainly** to any request in any state.
* `service_within` — **the service seals such a reply**, and the checks log in no span.
-/

namespace HealthService

open Pool

/-! ## Plain replies -/

/-- A response that says nothing of traces. -/
structure Response.Untraced (x : Response) : Prop where
  traceparent : x.headers.values "traceparent" = []
  tracestate : x.headers.values "tracestate" = []

/-- What a request is replied with before this is sealed, if some checks have been run for it. -/
inductive Reply.Plain (checks : List Task) : Reply → Prop
  | answered {x : Response} {late : List Entry} (took : Duration) (hx : x.Untraced)
      (hstatus : x.status ≠ 500) (hcalm : (checks.any fun u => u.progress.isPanic) = false)
      (hlate : ∀ e ∈ late, e.spans = [] ∧ e.event.OfReadiness) :
      Plain checks { outcome := .answered x, late := late, took := took }
  | panicked (payload : Payload) (took : Duration)
      (hpanic : (checks.any fun u => u.progress.isPanic) = true) :
      Plain checks { outcome := .panicked payload false, took := took }
  | abandoned (took : Duration) : Plain checks { outcome := .abandoned, took := took }

/-- The trace context of a request. -/
def Call.context (call : Call) : TraceContext :=
  (TraceContext.ofHeaders call.request.headers (call.draws 0)).1

/-- What is logged when a traceparent is not in order. -/
def Call.ignored (call : Call) : List Entry :=
  (TraceContext.ofHeaders call.request.headers (call.draws 0)).2

/-- **What a request is replied with**, if some checks have been run for it. -/
inductive Reply.Sealed (call : Call) (checks : List Task) : Reply → Prop
  | answered {x : Response} {late : List Entry} (took : Duration) (hx : x.Untraced)
      (hstatus : x.status ≠ 500) (hcalm : (checks.any fun u => u.progress.isPanic) = false)
      (hlate : ∀ e ∈ late, e.spans = [] ∧ e.event.OfReadiness) :
      Sealed call checks {
        outcome := .answered { x with headers := Layer.writeTrace call.context x.headers }
        early := call.ignored
        late := call.context.span.enclose (late ++ [Layer.requestEntry call.request x took])
        took := took }
  | panicked (payload : Payload) (took : Duration)
      (hpanic : (checks.any fun u => u.progress.isPanic) = true) :
      Sealed call checks {
        outcome := .answered Layer.panicResponse
        early := call.ignored
        late := [Layer.panicEntry call.request payload]
        took := took }
  | abandoned (took : Duration) :
      Sealed call checks { outcome := .abandoned, early := call.ignored, took := took }

/-- What a call brings that leads from one state to another one: a reply of some form, given the checks
that have been run for it, and what the checks log. -/
structure Reply.Within (form : List Task → Reply → Prop) (s t : HealthState) (r : Reply) : Prop where
  reply : form (t.pool.tasks.drop s.pool.tasks.length) r
  log : ∃ es, t.pool.log = s.pool.log ++ es ∧ ∀ e ∈ es, e.spans = [] ∧ e.event.OfCheck

namespace Response.Untraced

variable {x : Response}

theorem insert (h : x.Untraced) {name : String} (hparent : name ≠ "traceparent")
    (hstate : name ≠ "tracestate") (value : Bytes) :
    Untraced { x with headers := x.headers.insert name value } where
  traceparent := by
    rw [Headers.values_insert, if_neg hparent]
    exact h.traceparent
  tracestate := by
    rw [Headers.values_insert, if_neg hstate]
    exact h.tracestate

theorem ofProblem (p : Problem) : p.toResponse.Untraced := ⟨rfl, rfl⟩

theorem renderJson (status : Nat) (document : Except String (List Char)) (route : String) :
    (renderJson status document route).1.Untraced := ⟨rfl, rfl⟩

theorem forMethod (h : x.Untraced) (q : Request) : (HealthHandler.forMethod q x).Untraced := by
  unfold HealthHandler.forMethod
  split
  · exact ⟨h.traceparent, h.tracestate⟩
  · exact h

end Response.Untraced

/-! ## The handler -/

/-- Nothing is run for a request that is answered at once. -/
theorem Reply.Within.idle {x : Response} (hx : x.Untraced) (hstatus : x.status ≠ 500)
    (s : HealthState) : Within Plain s s { outcome := .answered x } where
  reply := by
    rw [List.drop_length]
    exact .answered 0 hx hstatus rfl (by simp)
  log := ⟨[], by simp⟩

/-- A plain reply is sealed by the outer layers. -/
theorem Reply.Plain.sealed {checks : List Task} {r : Reply} (h : r.Plain checks) (call : Call) :
    Sealed call checks (Layer.recover call.request (Layer.leaveTrace call.context call.ignored
      (Layer.logResponse call.request r))) := by
  cases h with
  | answered took hx hstatus hcalm hlate =>
    have hsealed : Sealed call checks _ := .answered took hx hstatus hcalm hlate
    rwa [← List.append_nil call.ignored] at hsealed
  | panicked payload took hpanic =>
    have hsealed : Sealed call checks _ := .panicked payload took hpanic
    rwa [← List.append_nil call.ignored] at hsealed
  | abandoned took =>
    have hsealed : Sealed call checks _ := .abandoned took
    rwa [← List.append_nil call.ignored] at hsealed

namespace HealthHandler

variable (h : HealthHandler) (call : Call) (s : HealthState)

/-- What readiness is replied with is plain. -/
theorem replyReady_within {r : Readiness} {parent : Context} {limit : Option Time} {verdict : Verdict}
    {t : HealthState} {entries : List Entry}
    (he : r.evaluate parent limit (entered s) = (verdict, t, entries)) (q : Request)
    (took : Duration) : Reply.Within Reply.Plain s t (replyReady q verdict entries took) := by
  have hends := r.ends_evaluate parent limit (entered s)
  rw [he] at hends
  have hlog := Readiness.checks_log_of_ends hends
  have hentries := Readiness.entries_of_ends hends
  refine ⟨?_, hlog⟩
  rcases (Readiness.evaluate_cases he).2 with
    ⟨rfl, -⟩ | ⟨-, ⟨hpanic, payload, rfl⟩ | ⟨hcalm, x, rfl, -⟩⟩
  · obtain rfl : entries = [] := hentries
    exact .abandoned took
  · obtain rfl : entries = [] := hentries
    exact .panicked payload took hpanic
  · obtain rfl : entries = [⟨Readiness.event x, []⟩] := hentries
    have hx : (renderReady x).1.Untraced := .renderJson _ _ _
    refine .answered took (hx.forMethod q) ?_ hcalm ?_
    · rw [status_forMethod]
      show x.statusCode ≠ 500
      rw [ReadyResponse.statusCode]
      split <;> decide
    · simpa using Readiness.ofReadiness_event x

/-- **The handler replies plainly** to any request in any state. -/
theorem handle_within :
    Reply.Within Reply.Plain s (h.handle call s).2 (h.handle call s).1 := by
  cases hroute : routeOf call.request with
  | unknown =>
    rw [handle_unknown h s hroute]
    exact .idle (x := notFound call.request) (.ofProblem _) (show 404 ≠ 500 by decide) s
  | notAllowed =>
    rw [handle_notAllowed h s hroute]
    have hx : (notAllowed call.request).Untraced :=
      (Response.Untraced.ofProblem _).insert (by decide) (by decide) _
    exact .idle hx (show 405 ≠ 500 by decide) s
  | live =>
    rw [handle_live h s hroute]
    have hx : (renderLive (h.live.respond s.pool.now)).1.Untraced := .renderJson _ _ _
    refine .idle (hx.forMethod _) ?_ s
    rw [status_forMethod]
    show 200 ≠ 500
    decide
  | ready =>
    rcases he : h.ready.evaluate s.pool.contexts.background.2 call.limit (entered s) with
      ⟨verdict, t, entries⟩
    rw [handle_ready h s hroute he]
    exact replyReady_within s he _ _

end HealthHandler

namespace Config

variable (c : Config) (checkers : List Checker) (metered : Bool) (self : Identity) (call : Call)
  (s : HealthState)

/-- **Behind the outer layers any request in any state is replied to plainly.** -/
theorem guarded_within :
    Reply.Within Reply.Plain s ((c.guarded checkers metered self).call call s).2
      ((c.guarded checkers metered self).call call s).1 := by
  cases hadmits : c.admits call.request with
  | true =>
    rw [guarded_of_admitted _ _ _ _ _ _ hadmits]
    exact HealthHandler.handle_within _ _ _
  | false =>
    obtain ⟨credentials, heq⟩ := guarded_of_stranger c checkers metered self call s hadmits
    rw [heq]
    have hx : (Layer.unauthorized credentials).Untraced :=
      (Response.Untraced.ofProblem _).insert (by decide) (by decide) _
    exact .idle hx (show 401 ≠ 500 by decide) s

variable {c checkers metered self call s}

/-- **The service seals the reply to any request in any state.** -/
theorem service_within {reply : Reply} {t : HealthState}
    (hcall : (c.service checkers metered self).call call s = (reply, t)) :
    Reply.Within (Reply.Sealed call) s t reply := by
  obtain ⟨hplain, hlog⟩ := c.guarded_within checkers metered self call s
  rw [call_service, Prod.mk.injEq] at hcall
  obtain ⟨rfl, rfl⟩ := hcall
  exact ⟨hplain.sealed call, hlog⟩

/-- What the service makes of an evaluation. -/
theorem service_ready (hadmits : c.admits call.request = true)
    (hroute : HealthHandler.routeOf call.request = .ready) {verdict : Verdict} {t : HealthState}
    {entries : List Entry} (he : (c.readiness checkers metered).evaluate
      s.pool.contexts.background.2 call.limit (HealthHandler.entered s) = (verdict, t, entries)) :
    (c.service checkers metered self).call call s =
      (Layer.recover call.request (Layer.leaveTrace call.context call.ignored
        (Layer.logResponse call.request (HealthHandler.replyReady call.request verdict entries
          (t.pool.now - s.pool.now)))), t) := by
  have hhandle := (c.handler checkers metered self).handle_ready s hroute he
  rw [call_service, guarded_of_admitted _ _ _ _ _ _ hadmits, hhandle]
  rfl

/-- When one check is in order and another one panics, so does the evaluation. -/
theorem evaluate_of_panic : ∃ t, Readiness.evaluate (readiness {}
        [⟨"a", .finish ⟨.ok, none⟩⟩, ⟨"b", .panic (.text "boom")⟩] false)
        ({} : Contexts).background.2 none (HealthHandler.entered {}) =
      (.panic (.text "boom"), t, []) ∧
    t.pool.now = 0 ∧ t.pool.log = [⟨.checkFinished "a" .ok 0, []⟩] := by
  rw [Readiness.evaluate_of_run_eq _ _ _
    ((run_of_step rfl rfl).trans ((run_of_step rfl rfl).trans (run_of_enough rfl))) rfl]
  exact ⟨_, rfl, rfl, rfl⟩

/-- What becomes of a request for readiness when one check is in order and another one panics. -/
theorem service_of_panic (self : Identity) {call : Call} (hlimit : call.limit = none)
    (hroute : HealthHandler.routeOf call.request = .ready) :
    let v := ({} : Config).service
      [⟨"a", .finish ⟨.ok, none⟩⟩, ⟨"b", .panic (.text "boom")⟩] false self
    (v.call call {}).1 = {
      outcome := .answered Layer.panicResponse
      early := call.ignored
      late := [Layer.panicEntry call.request (.text "boom")] } ∧
    (v.call call {}).2.pool.log = [⟨.checkFinished "a" .ok 0, []⟩] := by
  intro v
  obtain ⟨t, heval, hnow, hlog⟩ := evaluate_of_panic
  rw [← hlimit] at heval
  rw [service_ready rfl hroute heval, hnow]
  refine ⟨?_, hlog⟩
  conv_rhs => rw [← List.append_nil call.ignored]
  rfl

end Config
end HealthService
