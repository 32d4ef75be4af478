import HealthService.App
import HealthService.Proofs.Readiness.Outcome
import HealthService.Proofs.Service.Problems

/-!
# What a request is answered with

A request passes the layers for recovery, traces, logging and, if so configured, access, and then the
handler, each of which may be the one to answer.  Who comes first decides; `Config.statusFor` says what
the status is, as a function of the request and of what its checks have come to.

* `outcome_service` — **what the outer layers make of an outcome**: traces in its headers, and a
  response in place of a panic.
* `handle_cases` — what the handler makes of a request that has been let in.
* `answers_by_precedence` — **the answer to any request in any state**: its status, its headers and its
  problem document, and when checks are run for it.
-/

namespace HealthService

open Pool

/-! ## What is claimed of an answer -/

namespace Config

/-- Whether a request is let in: nothing is asked for, or its first authorization header shows the
credentials. -/
def admits (c : Config) (q : Request) : Bool :=
  c.auth.all fun a => a.credentials.admits (q.headers.first? "authorization")

/-- Whether checks are to be run for a request. -/
def runsChecks (c : Config) (q : Request) : Bool :=
  c.admits q && q.path = "/health/ready" && (q.method = "GET" || q.method = "HEAD")

/-- The status of the answer to a request for which some checks have been run. -/
def statusFor (c : Config) (q : Request) (checks : List Task) : Nat :=
  if c.admits q = false then 401
  else if q.path ≠ "/health/live" ∧ q.path ≠ "/health/ready" then 404
  else if q.method ≠ "GET" ∧ q.method ≠ "HEAD" then 405
  else if q.path = "/health/live" then 200
  else if (checks.any fun t => t.progress.isPanic) = true then 500
  else if (checks.all fun t => t.progress.isOk) = true then 200
  else 503

/-- What a response has to be that answers a request for which some checks have been run. -/
structure Answers (c : Config) (q : Request) (checks : List Task) (x : Response) : Prop where
  status : x.status = c.statusFor q checks
  allow : x.status = 405 → x.headers.values "allow" = [Utf8.ofString "GET, HEAD"]
  problem : x.status ∈ [401, 404, 405, 500] → x.IsProblem

end Config

/-! ## Problems of the service -/

/-- A problem without extensions is carried by a response with its status, if that is a status code. -/
theorem Problem.isProblem_plain {p : Problem} (hext : p.extensions = [])
    (hstatus : isStatusCode p.status.toNat = true) : p.toResponse.IsProblem := by
  apply isProblem_toResponse
  · simp [hext]
  · simp [hext]
  · simp [hext]
  · exact hstatus

namespace Layer

theorem isProblem_unauthorized (credentials : Credentials) : (unauthorized credentials).IsProblem :=
  Response.isProblem_insert (Problem.isProblem_plain rfl rfl) (by decide) _

theorem isProblem_panicResponse : panicResponse.IsProblem := Problem.isProblem_plain rfl rfl

/-! ## The outer layers -/

/-- A trace is written into two headers and leaves all others alone. -/
theorem values_writeTrace (t : TraceContext) (h : Headers) {name : String}
    (hparent : name ≠ "traceparent") (hstate : name ≠ "tracestate") :
    (writeTrace t h).values name = h.values name := by
  rw [writeTrace, Headers.values_insert?_of_ne _ (Ne.symm hstate),
    Headers.values_insert?_of_ne _ (Ne.symm hparent)]

/-- What becomes of an outcome in the layers for recovery, traces and logging. -/
def sealed (t : TraceContext) : Outcome → Outcome
  | .answered x => .answered { x with headers := writeTrace t x.headers }
  | .panicked _ _ => .answered panicResponse
  | o => o

theorem outcome_sealed (q : Request) (t : TraceContext) (entries : List Entry) (r : Reply) :
    (recover q (leaveTrace t entries (logResponse q r))).outcome = sealed t r.outcome := by
  obtain ⟨outcome, early, late, took⟩ := r
  cases outcome with
  | panicked payload atOnce => cases atOnce <;> rfl
  | _ => rfl

theorem abandoned_of_sealed {t : TraceContext} {o : Outcome} (h : sealed t o = .abandoned) :
    o = .abandoned := by
  cases o <;> first | rfl | cases h

/-- A call within a trace asks for the same. -/
theorem enterTrace_fst (call : Call) :
    (enterTrace call).1.request = call.request ∧ (enterTrace call).1.limit = call.limit := by
  unfold enterTrace
  cases TraceContext.ofHeaders call.request.headers (call.draws 0) with
  | mk t entries => exact ⟨rfl, rfl⟩

end Layer

/-! ## The routes of the handler -/

namespace HealthHandler

variable (h : HealthHandler) {call call' : Call} (s : HealthState)

/-- The handler sees no more of a call than its request and how long the caller waits. -/
theorem handle_congr (hrequest : call.request = call'.request) (hlimit : call.limit = call'.limit) :
    h.handle call s = h.handle call' s := by
  unfold handle
  rw [hrequest, hlimit]

theorem status_forMethod (q : Request) (x : Response) : (forMethod q x).status = x.status := by
  unfold forMethod
  split <;> rfl

theorem handle_unknown (hroute : routeOf call.request = .unknown) :
    h.handle call s = ({ outcome := .answered (notFound call.request) }, s) := by
  unfold handle
  simp only [hroute]

theorem handle_notAllowed (hroute : routeOf call.request = .notAllowed) :
    h.handle call s = ({ outcome := .answered (notAllowed call.request) }, s) := by
  unfold handle
  simp only [hroute]

theorem handle_live (hroute : routeOf call.request = .live) :
    h.handle call s =
      ({ outcome := .answered (forMethod call.request (renderLive (h.live.respond s.pool.now)).1)
         late := (renderLive (h.live.respond s.pool.now)).2 }, s) := by
  unfold handle
  simp only [hroute]

/-- The state in which readiness is evaluated for a request: there is a context for it. -/
def entered (s : HealthState) : HealthState :=
  { s with pool := { s.pool with contexts := s.pool.contexts.background.1 } }

theorem handle_ready (hroute : routeOf call.request = .ready) {verdict : Verdict} {t : HealthState}
    {entries : List Entry} (he : h.ready.evaluate s.pool.contexts.background.2 call.limit (entered s) =
      (verdict, t, entries)) :
    h.handle call s = (replyReady call.request verdict entries (t.pool.now - s.pool.now), t) := by
  unfold handle
  unfold entered at he
  rcases hroot : s.pool.contexts.background with ⟨contexts, root⟩
  rw [hroot] at he
  simp only [hroute, he]

/-- **A caller who waits without limit gets an answer** from checks that all end. -/
theorem handle_of_waits (hlimit : call.limit = none) (hwaits : ∀ d ∈ h.ready.checkers,
      d.behaviour.Always (Behaviour.WaitsFor (h.ready.budgets.checkDeadline s.pool.now none))) :
    (h.handle call s).1.outcome ≠ .abandoned := by
  cases hroute : routeOf call.request with
  | unknown => simp [handle_unknown h s hroute]
  | notAllowed => simp [handle_notAllowed h s hroute]
  | live => simp [handle_live h s hroute]
  | ready =>
    rcases he : h.ready.evaluate s.pool.contexts.background.2 call.limit (entered s) with
      ⟨verdict, t, entries⟩
    rw [handle_ready h s hroute he]
    rw [hlimit] at he
    cases verdict with
    | abandoned => exact absurd rfl (Readiness.evaluate_of_waits he hwaits)
    | panic payload => exact Outcome.noConfusion
    | response r => exact Outcome.noConfusion

end HealthHandler

namespace Config

variable (c : Config) (checkers : List Checker) (metered : Bool) (self : Identity) (call : Call)
  (s : HealthState)

/-- The handler behind the layer for access, if there is one. -/
def guarded : Service HealthState :=
  Layer.stack (c.auth.map fun a => Layer.auth a.credentials).toList
    (c.handler checkers metered self).service

/-- Who is behind the layer for access is asked by those who are let in. -/
theorem guarded_call : (c.guarded checkers metered self).call call s =
    match c.auth with
    | some a =>
      if a.credentials.admits (call.request.headers.first? "authorization") = true then
        (c.handler checkers metered self).handle call s
      else ({ outcome := .answered (Layer.unauthorized a.credentials) }, s)
    | none => (c.handler checkers metered self).handle call s := by
  unfold guarded
  cases c.auth <;> rfl

theorem guarded_of_stranger (h : c.admits call.request = false) : ∃ credentials,
    (c.guarded checkers metered self).call call s =
      ({ outcome := .answered (Layer.unauthorized credentials) }, s) := by
  unfold admits at h
  rw [guarded_call]
  cases hauth : c.auth with
  | none => simp [hauth] at h
  | some a =>
    rw [hauth, Option.all_some] at h
    exact ⟨a.credentials, by simp [h]⟩

theorem guarded_of_admitted (h : c.admits call.request = true) :
    (c.guarded checkers metered self).call call s =
      (c.handler checkers metered self).handle call s := by
  unfold admits at h
  rw [guarded_call]
  cases hauth : c.auth with
  | none => rfl
  | some a =>
    rw [hauth, Option.all_some] at h
    simp [h]

/-- **The outer layers around the rest of the service**: recovery, the trace and the log. -/
theorem call_service : (c.service checkers metered self).call call s =
    (Layer.recover call.request (Layer.leaveTrace
        (TraceContext.ofHeaders call.request.headers (call.draws 0)).1
        (TraceContext.ofHeaders call.request.headers (call.draws 0)).2
        (Layer.logResponse call.request ((c.guarded checkers metered self).call call s).1)),
      ((c.guarded checkers metered self).call call s).2) := by
  have hinner : (c.guarded checkers metered self).call (Layer.enterTrace call).1 s =
      (c.guarded checkers metered self).call call s := by
    obtain ⟨hrequest, hlimit⟩ := Layer.enterTrace_fst call
    rw [guarded_call, guarded_call, hrequest, HealthHandler.handle_congr _ s hrequest hlimit]
  have hstack : c.service checkers metered self = Layer.wrap .recovery (Layer.wrap .trace
      (Layer.wrap .logger (c.guarded checkers metered self))) := rfl
  rw [hstack, ← hinner]
  rfl

/-- **The outer layers seal the outcome** and leave the state alone. -/
theorem outcome_service : ∃ t,
    ((c.service checkers metered self).call call s).1.outcome =
      Layer.sealed t ((c.guarded checkers metered self).call call s).1.outcome ∧
    ((c.service checkers metered self).call call s).2 =
      ((c.guarded checkers metered self).call call s).2 := by
  rw [call_service]
  exact ⟨_, Layer.outcome_sealed _ _ _ _, rfl⟩

variable {c checkers metered self call s} {q : Request} {checks : List Task} {x : Response}

/-! ## Answers -/

/-- Traces make no difference to what is claimed of an answer. -/
theorem Answers.writeTrace (h : c.Answers q checks x) (t : TraceContext) :
    c.Answers q checks { x with headers := Layer.writeTrace t x.headers } where
  status := h.status
  allow hx := by
    show (Layer.writeTrace t x.headers).values "allow" = _
    rw [Layer.values_writeTrace _ _ (by decide) (by decide)]
    exact h.allow hx
  problem hx := by
    refine ⟨?_, (h.problem hx).2⟩
    show (Layer.writeTrace t x.headers).values "content-type" = _
    rw [Layer.values_writeTrace _ _ (by decide) (by decide)]
    exact (h.problem hx).1

/-- A problem answers a request with its status, unless that is 405. -/
theorem answers_problem (hstatus : x.status = c.statusFor q checks) (hne : x.status ≠ 405)
    (hx : x.IsProblem) : c.Answers q checks x :=
  ⟨hstatus, fun h => absurd h hne, fun _ => hx⟩

/-- A health response answers a request with its status. -/
theorem answers_health (hstatus : x.status = c.statusFor q checks)
    (h : x.status = 200 ∨ x.status = 503) : c.Answers q checks x := by
  refine ⟨hstatus, fun hx => ?_, fun hx => ?_⟩
  · rcases h with h | h <;> rw [h] at hx <;> exact absurd hx (by decide)
  · rcases h with h | h <;> rw [h] at hx <;> exact absurd hx (by decide)

theorem answers_unauthorized (hstranger : c.admits q = false) (credentials : Credentials) :
    c.Answers q checks (Layer.unauthorized credentials) := by
  refine answers_problem ?_ (show 401 ≠ 405 by decide) (Layer.isProblem_unauthorized credentials)
  rw [statusFor, if_pos hstranger]
  rfl

section Admitted

variable (hadmits : c.admits q = true)

include hadmits

theorem answers_notFound (hpath : q.path ≠ "/health/live" ∧ q.path ≠ "/health/ready") :
    c.Answers q checks (HealthHandler.notFound q) := by
  refine answers_problem ?_ (show 404 ≠ 405 by decide) (Problem.isProblem_plain rfl rfl)
  rw [statusFor, if_neg (by simp [hadmits]), if_pos hpath]
  rfl

theorem answers_notAllowed (hpath : ¬ (q.path ≠ "/health/live" ∧ q.path ≠ "/health/ready"))
    (hmethod : q.method ≠ "GET" ∧ q.method ≠ "HEAD") :
    c.Answers q checks (HealthHandler.notAllowed q) where
  status := by
    rw [statusFor, if_neg (by simp [hadmits]), if_neg hpath, if_pos hmethod]
    rfl
  allow _ := by
    show (Headers.insert _ "allow" _).values "allow" = _
    rw [Headers.values_insert, if_pos rfl]
  problem _ := Response.isProblem_insert (Problem.isProblem_plain rfl rfl) (by decide) _

end Admitted

/-! ## The handler -/

/-- What is claimed of the outcome of a call, and of the checks that have been run for it.  In the
handler a panic of a check is still a panic. -/
inductive Treats (c : Config) (q : Request) (checks : List Task) : Outcome → Prop
  | answered {x : Response} (hx : c.Answers q checks x) (hend : ∀ u ∈ checks, u.hasEnded = true) :
      Treats c q checks (.answered x)
  | panicked (payload : Payload) (hstatus : c.statusFor q checks = 500)
      (hend : ∀ u ∈ checks, u.hasEnded = true) : Treats c q checks (.panicked payload false)
  | abandoned (hruns : c.runsChecks q = true) (hlive : ∃ u ∈ checks, u.hasEnded = false) :
      Treats c q checks .abandoned

/-- What is claimed of a call that leads from one state to another one: its outcome, and that the
checks that have been run for it are all checkers, in their order, or none. -/
structure Handles (c : Config) (checkers : List Checker) (q : Request) (s t : HealthState)
    (o : Outcome) : Prop where
  outcome : c.Treats q (t.pool.tasks.drop s.pool.tasks.length) o
  ran : c.runsChecks q = true →
    (t.pool.tasks.drop s.pool.tasks.length).map Task.name = checkers.map Checker.name
  idle : c.runsChecks q = false → t = s

/-- Nothing is run for a request that is answered without looking at the state. -/
theorem handles_idle (hx : c.Answers q [] x) (hruns : c.runsChecks q = false) :
    c.Handles checkers q s s (.answered x) where
  outcome := by
    rw [List.drop_length]
    exact .answered hx (by simp)
  ran h := by
    rw [hruns] at h
    cases h
  idle _ := rfl

theorem runsChecks_iff : c.runsChecks q = true ↔
    c.admits q = true ∧ q.path = "/health/ready" ∧ (q.method = "GET" ∨ q.method = "HEAD") := by
  simp [runsChecks, and_assoc]

section Handler

variable (hadmits : c.admits call.request = true)

include hadmits

theorem handles_live (hpath : ¬ (call.request.path ≠ "/health/live" ∧
      call.request.path ≠ "/health/ready"))
    (hmethod : ¬ (call.request.method ≠ "GET" ∧ call.request.method ≠ "HEAD"))
    (hlive : call.request.path = "/health/live") (r : LiveResponse) :
    c.Handles checkers call.request s s
      (.answered (HealthHandler.forMethod call.request (renderLive r).1)) := by
  have hstatus : (HealthHandler.forMethod call.request (renderLive r).1).status = 200 :=
    HealthHandler.status_forMethod _ _
  refine handles_idle (answers_health ?_ (Or.inl hstatus)) ?_
  · rw [hstatus, statusFor, if_neg (by simp [hadmits]), if_neg hpath, if_neg hmethod, if_pos hlive]
  · rw [← Bool.not_eq_true, runsChecks_iff, hlive]
    exact fun h => absurd h.2.1 (by decide)

theorem handles_ready (hpath : ¬ (call.request.path ≠ "/health/live" ∧
      call.request.path ≠ "/health/ready"))
    (hmethod : ¬ (call.request.method ≠ "GET" ∧ call.request.method ≠ "HEAD"))
    (hlive : call.request.path ≠ "/health/live") {parent : Context} {verdict : Verdict}
    {t : HealthState} {entries : List Entry}
    (he : (c.readiness checkers metered).evaluate parent call.limit (HealthHandler.entered s) =
      (verdict, t, entries)) (took : Duration) :
    c.Handles checkers call.request s t
      (HealthHandler.replyReady call.request verdict entries took).outcome := by
  have hruns : c.runsChecks call.request = true := by
    rw [runsChecks_iff]
    refine ⟨hadmits, ?_, ?_⟩
    · by_contra hready
      exact hpath ⟨hlive, hready⟩
    · by_contra hother
      rw [not_or] at hother
      exact hmethod hother
  have hstatus : ∀ checks, c.statusFor call.request checks =
      if (checks.any fun t => t.progress.isPanic) = true then 500
      else if (checks.all fun t => t.progress.isOk) = true then 200 else 503 := by
    intro checks
    rw [statusFor, if_neg (by simp [hadmits]), if_neg hpath, if_neg hmethod, if_neg hlive]
  obtain ⟨hnames, hcases⟩ := Readiness.evaluate_cases he
  refine ⟨?_, fun _ => hnames, fun h => ?_⟩
  · rcases hcases with ⟨rfl, hrunning⟩ | ⟨hend, ⟨hpanic, payload, rfl⟩ | ⟨hcalm, x, rfl, hx⟩⟩
    · exact .abandoned hruns hrunning
    · exact .panicked payload ((hstatus _).trans (if_pos hpanic)) hend
    · have hcode := HealthHandler.status_forMethod call.request (renderReady x).1
      refine .answered (answers_health ?_ ?_) hend
      · refine hcode.trans (hx.trans ?_)
        rw [hstatus]
        exact (if_neg (Bool.eq_false_iff.1 hcalm)).symm
      · refine Or.imp hcode.trans hcode.trans ?_
        show x.statusCode = 200 ∨ x.statusCode = 503
        rw [ReadyResponse.statusCode]
        split <;> simp
  · rw [hruns] at h
    cases h

/-- **What the handler makes of a request that is let in.** -/
theorem handle_cases :
    c.Handles checkers call.request s ((c.handler checkers metered self).handle call s).2
      ((c.handler checkers metered self).handle call s).1.outcome := by
  by_cases hpath : call.request.path ≠ "/health/live" ∧ call.request.path ≠ "/health/ready"
  · rw [HealthHandler.handle_unknown _ _ (if_pos hpath)]
    refine handles_idle (answers_notFound hadmits hpath) ?_
    rw [← Bool.not_eq_true, runsChecks_iff]
    exact fun h => hpath.2 h.2.1
  by_cases hmethod : call.request.method ≠ "GET" ∧ call.request.method ≠ "HEAD"
  · rw [HealthHandler.handle_notAllowed _ _ ((if_neg hpath).trans (if_pos hmethod))]
    refine handles_idle (answers_notAllowed hadmits hpath hmethod) ?_
    rw [← Bool.not_eq_true, runsChecks_iff]
    exact fun h => h.2.2.elim hmethod.1 hmethod.2
  by_cases hlive : call.request.path = "/health/live"
  · rw [HealthHandler.handle_live _ _
      ((if_neg hpath).trans ((if_neg hmethod).trans (if_pos hlive)))]
    exact handles_live hadmits hpath hmethod hlive _
  · rcases he : (c.readiness checkers metered).evaluate s.pool.contexts.background.2 call.limit
      (HealthHandler.entered s) with ⟨verdict, t, entries⟩
    rw [HealthHandler.handle_ready _ _
      ((if_neg hpath).trans ((if_neg hmethod).trans (if_neg hlive))) he]
    exact handles_ready hadmits hpath hmethod hlive he _

end Handler

/-! ## The service -/

/-- What the layer for access and the handler make of any request. -/
theorem guarded_cases (c : Config) (checkers : List Checker) (metered : Bool) (self : Identity)
    (call : Call) (s : HealthState) :
    c.Handles checkers call.request s ((c.guarded checkers metered self).call call s).2
      ((c.guarded checkers metered self).call call s).1.outcome := by
  cases hadmits : c.admits call.request with
  | true =>
    rw [guarded_of_admitted _ _ _ _ _ _ hadmits]
    exact handle_cases hadmits
  | false =>
    obtain ⟨credentials, heq⟩ := guarded_of_stranger c checkers metered self call s hadmits
    rw [heq]
    refine handles_idle (answers_unauthorized hadmits credentials) ?_
    rw [runsChecks, hadmits, Bool.false_and, Bool.false_and]

theorem guarded_of_waits (c : Config) (checkers : List Checker) (metered : Bool) (self : Identity)
    (call : Call) (s : HealthState) (hlimit : call.limit = none) (hwaits : ∀ d ∈ checkers,
      d.behaviour.Always (Behaviour.WaitsFor (c.health.budgets.checkDeadline s.pool.now none))) :
    ((c.guarded checkers metered self).call call s).1.outcome ≠ .abandoned := by
  cases hadmits : c.admits call.request with
  | true =>
    rw [guarded_of_admitted _ _ _ _ _ _ hadmits]
    exact HealthHandler.handle_of_waits _ s hlimit hwaits
  | false =>
    obtain ⟨credentials, heq⟩ := guarded_of_stranger c checkers metered self call s hadmits
    rw [heq]
    exact Outcome.noConfusion

/-- **The answer to any request in any state**, whatever earlier requests have left there, whatever the
checkers do, and with any configuration.

* The service neither panics nor fails.  It answers, all checks of the request having ended; only if
  checks are run and one of them has not ended is there no answer, because nobody waited for it.  Who
  waits without limit gets one, unless a check waits for what never comes.
* The status is the one that the first of these to apply gives: who is let in, which path, which
  method, whether a check has panicked, whether all results are in order.  With 405 goes the list of
  methods, and all but the health responses are problem documents that have the same status.
* Checks are run for requests that are let in, for readiness, with GET or HEAD, and these are all
  checkers in their order.  Any other request leaves the state as it is. -/
theorem answers_by_precedence {reply : Reply} {t : HealthState}
    (hcall : (c.service checkers metered self).call call s = (reply, t)) :
    ((∃ x, reply.outcome = .answered x ∧
        c.Answers call.request (t.pool.tasks.drop s.pool.tasks.length) x ∧
        ∀ u ∈ t.pool.tasks.drop s.pool.tasks.length, u.hasEnded = true) ∨
      reply.outcome = .abandoned ∧ c.runsChecks call.request = true ∧
        ∃ u ∈ t.pool.tasks.drop s.pool.tasks.length, u.hasEnded = false) ∧
    (call.limit = none → (∀ d ∈ checkers, d.behaviour.Always (Behaviour.WaitsFor
        (c.health.budgets.checkDeadline s.pool.now none))) → reply.outcome ≠ .abandoned) ∧
    (c.runsChecks call.request = true →
      (t.pool.tasks.drop s.pool.tasks.length).map Task.name = checkers.map Checker.name) ∧
    (c.runsChecks call.request = false → t = s) := by
  obtain ⟨trace, hout, hstate⟩ := outcome_service c checkers metered self call s
  have hinner := guarded_cases c checkers metered self call s
  have hpatient := guarded_of_waits c checkers metered self call s
  rw [← hstate, hcall] at hinner
  rw [hcall] at hout
  generalize ((c.guarded checkers metered self).call call s).1.outcome = o at hinner hpatient hout
  refine ⟨?_, fun hlimit hwaits habandoned => ?_, hinner.ran, hinner.idle⟩
  · cases hinner.outcome with
    | answered hx hend => exact Or.inl ⟨_, hout, hx.writeTrace trace, hend⟩
    | panicked payload hstatus hend =>
      refine Or.inl ⟨_, hout, ?_, hend⟩
      exact answers_problem hstatus.symm (show 500 ≠ 405 by decide) Layer.isProblem_panicResponse
    | abandoned hruns hlive => exact Or.inr ⟨hout, hruns, hlive⟩
  · exact hpatient hlimit hwaits (Layer.abandoned_of_sealed (hout.symm.trans habandoned))

/-- A request for readiness is answered with 500 when a check panics. -/
theorem answers_panic :
    let c : Config := {}
    let self : Identity := ⟨"here", 0, ⟨0, 0⟩⟩
    let call : Call := ⟨{ path := "/health/ready" }, none, fun _ => ⟨0, 0, 1, by decide⟩, none⟩
    let checkers : List Checker := [⟨"a", .panic (.text "boom")⟩]
    ∃ x, ((c.service checkers false self).call call {}).1.outcome = .answered x ∧
      x.status = 500 ∧ x.IsProblem := by
  intro c self call checkers
  have heval := Readiness.evaluate_of_run_eq (c.readiness checkers false)
    ({} : Contexts).background.2 (HealthHandler.entered {})
    ((run_of_step rfl rfl).trans (run_of_enough rfl)) rfl
  have hroute : HealthHandler.routeOf call.request = .ready := rfl
  have hhandle := (c.handler checkers false self).handle_ready {} hroute heval
  have hguarded := (guarded_of_admitted c checkers false self call {} rfl).trans hhandle
  obtain ⟨trace, -, hstate⟩ := outcome_service c checkers false self call {}
  obtain ⟨hanswer, -⟩ :=
    answers_by_precedence (Prod.mk.eta (p := (c.service checkers false self).call call {})).symm
  rw [hstate, hguarded] at hanswer
  rcases hanswer with ⟨x, hx, hanswers, -⟩ | ⟨-, -, u, hu, hlive⟩
  · have hstatus : x.status = 500 := hanswers.status
    exact ⟨x, hx, hstatus, hanswers.problem (by simp [hstatus])⟩
  · obtain rfl := List.mem_singleton.1 hu
    cases hlive

end Config
end HealthService
