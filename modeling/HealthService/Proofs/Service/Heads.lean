import HealthService.Proofs.Service.Journal
import HealthService.Proofs.Text.Utf8

/-!
# Asking for the head of an answer

Who asks with HEAD wants to see what GET would be answered with, but not the body. The handler does all that
it does for GET and leaves the body out at the very end, so that the two cannot be told apart by anything
else.

* `HealthHandler.mapResponse_replyReady` — whatever an evaluation comes to, the reply is the one to GET
  without its body.
* `HealthHandler.head_mirrors_get` — **HEAD is answered as GET, without the body**, with the same checks,
  events and changes of the state; no other request has any effect at all.
* `HealthHandler.history_inFull` — in a whole history, nobody can tell from the state or the log who has
  asked with HEAD.
-/

namespace HealthService

/-- A response without its body. -/
def Response.bodiless (x : Response) : Response := { x with body := [] }

/-- The same call, but with GET in place of HEAD. -/
def Call.inFull (c : Call) : Call :=
  if c.request.method = "HEAD" then { c with request := { c.request with method := "GET" } } else c

/-- The same transaction, but with GET in place of HEAD. -/
def Transaction.inFull {v : Service HealthState} (x : Transaction v) : Transaction v :=
  ⟨x.call.inFull, x.before⟩

namespace HealthHandler

variable (h : HealthHandler) {q : Request} {c : Call} (s : HealthState)

/-! ## Routes and methods -/

/-- A request that one of the two routes answers with a health response. -/
structure AsksHealth (q : Request) : Prop where
  path : q.path = liveRoute ∨ q.path = readyRoute
  method : q.method = "GET" ∨ q.method = "HEAD"

/-- Where a request for a health response leads is settled by its path. -/
theorem routeOf_of_asksHealth (hq : AsksHealth q) :
    routeOf q = if q.path = liveRoute then .live else .ready := by
  have hknown : ¬ (q.path ≠ liveRoute ∧ q.path ≠ readyRoute) := fun hne => hq.path.elim hne.1 hne.2
  have hallowed : ¬ (q.method ≠ "GET" ∧ q.method ≠ "HEAD") := fun hne => hq.method.elim hne.1 hne.2
  rw [routeOf, if_neg hknown, if_neg hallowed]

/-- Any other request leads nowhere. -/
theorem routeOf_of_not_asksHealth (hq : ¬ AsksHealth q) :
    routeOf q = .unknown ∨ routeOf q = .notAllowed := by
  unfold routeOf
  split
  · exact Or.inl rfl
  · rename_i hknown
    split
    · exact Or.inr rfl
    · rename_i hallowed
      rw [not_and_or, not_not, not_not] at hknown hallowed
      exact absurd ⟨hknown, hallowed⟩ hq

/-- With GET in place of HEAD a call asks for the same. -/
theorem inFull_same (c : Call) : c.inFull.request.path = c.request.path ∧ c.inFull.limit = c.limit ∧
    (c.inFull.request.method = "GET" ∧ c.request.method = "HEAD" ∨
      c.inFull.request.method = c.request.method ∧ c.request.method ≠ "HEAD") := by
  unfold Call.inFull
  split
  · exact ⟨rfl, rfl, Or.inl ⟨rfl, ‹_›⟩⟩
  · exact ⟨rfl, rfl, Or.inr ⟨rfl, ‹_›⟩⟩

theorem asksHealth_inFull : AsksHealth c.inFull.request ↔ AsksHealth c.request := by
  obtain ⟨hpath, -, ⟨hget, hhead⟩ | ⟨hmethod, -⟩⟩ := inFull_same c
  · exact ⟨fun hc => ⟨hpath ▸ hc.path, Or.inr hhead⟩, fun hc => ⟨hpath ▸ hc.path, Or.inl hget⟩⟩
  · constructor
    · exact fun hc => ⟨hpath ▸ hc.path, hmethod ▸ hc.method⟩
    · exact fun hc => ⟨hpath ▸ hc.path, hmethod ▸ hc.method⟩

/-- A call for a health response asks for it with GET then. -/
theorem method_inFull (hc : AsksHealth c.request) : c.inFull.request.method = "GET" := by
  obtain ⟨-, -, ⟨hget, -⟩ | ⟨hmethod, hnot⟩⟩ := inFull_same c
  · exact hget
  · rw [hmethod]
    exact hc.method.resolve_right hnot

theorem forMethod_of_get (x : Response) (hget : q.method = "GET") : forMethod q x = x := by
  rw [forMethod, hget]
  rfl

theorem forMethod_of_head (x : Response) (hhead : q.method = "HEAD") : forMethod q x = x.bodiless :=
  if_pos hhead

/-- What is rendered for GET is never empty. -/
theorem body_renderJson_ne_nil (status : Nat) (text : List Char) (route : String) :
    (renderJson status (.ok text) route).1.body ≠ [] := by
  show Utf8.encode (text ++ ['\n']) ≠ []
  rw [Utf8.encode_append]
  exact List.append_ne_nil_of_right_ne_nil _ (by decide)

/-! ## Two requests in the same state -/

/-- **Whatever an evaluation comes to**, the reply is the one to GET, as far as the method wants it. -/
theorem mapResponse_replyReady {full : Request} (hget : full.method = "GET") (v : Verdict)
    (entries : List Entry) (took : Duration) : replyReady q v entries took =
      (replyReady full v entries took).mapResponse (forMethod q) := by
  cases v with
  | response r =>
    simp only [replyReady, Reply.mapResponse]
    rw [forMethod_of_get _ hget]
  | panic payload => rfl
  | abandoned => rfl

/-- A request for a health response is answered as GET, as far as the method wants it. -/
theorem handle_of_asksHealth (hc : AsksHealth c.request) : h.handle c s =
    ((h.handle c.inFull s).1.mapResponse (forMethod c.request), (h.handle c.inFull s).2) := by
  obtain ⟨hpath, hlimit, -⟩ := inFull_same c
  have hget := method_inFull hc
  have hroute := routeOf_of_asksHealth hc
  have hroute' := routeOf_of_asksHealth (asksHealth_inFull.2 hc)
  rw [hpath] at hroute'
  by_cases hlive : c.request.path = liveRoute
  · rw [if_pos hlive] at hroute hroute'
    rw [handle_live h s hroute, handle_live h s hroute', forMethod_of_get _ hget]
    rfl
  · rw [if_neg hlive] at hroute hroute'
    rw [handle_ready h s hroute rfl, handle_ready h s hroute' rfl, mapResponse_replyReady hget, hlimit]

/-- No other request has any effect. -/
theorem handle_of_not_asksHealth (hc : ¬ AsksHealth c.request) : ∃ x : Response,
    h.handle c s = ({ outcome := .answered x }, s) ∧ (x.status = 404 ∨ x.status = 405) := by
  rcases routeOf_of_not_asksHealth hc with hroute | hroute
  · exact ⟨_, handle_unknown h s hroute, Or.inl rfl⟩
  · exact ⟨_, handle_notAllowed h s hroute, Or.inr rfl⟩

/-- The handler sees no more of a request than its method and its path. -/
theorem handle_of_same {c d : Call} (hmethod : c.request.method = d.request.method)
    (hpath : c.request.path = d.request.path) (hlimit : c.limit = d.limit) :
    h.handle c s = h.handle d s := by
  obtain ⟨⟨method, path, headers, remote⟩, trace, draws, limit⟩ := c
  dsimp only at hmethod hpath hlimit
  subst hmethod hpath hlimit
  rfl

/-- A health response to GET has a body. -/
theorem body_ne_nil_of_get (hget : c.request.method = "GET")
    (hpath : c.request.path = liveRoute ∨ c.request.path = readyRoute) {x : Response}
    (hx : (h.handle c s).1.outcome = .answered x) : x.body ≠ [] := by
  have hroute := routeOf_of_asksHealth ⟨hpath, Or.inl hget⟩
  by_cases hlive : c.request.path = liveRoute
  · rw [if_pos hlive] at hroute
    rw [handle_live h s hroute, forMethod_of_get _ hget] at hx
    obtain rfl := Outcome.answered.inj hx
    exact body_renderJson_ne_nil _ _ _
  · rw [if_neg hlive] at hroute
    rcases heval : h.ready.evaluate s.pool.contexts.background.2 c.limit (entered s) with
      ⟨verdict, t, entries⟩
    rw [handle_ready h s hroute heval] at hx
    cases verdict with
    | response r =>
      simp only [replyReady, forMethod_of_get _ hget] at hx
      obtain rfl := Outcome.answered.inj hx
      exact body_renderJson_ne_nil _ _ _
    | panic payload => cases hx
    | abandoned => cases hx

/-- Two requests for the same health response, one with GET and one with HEAD. Whatever else they bring with
them may differ. -/
structure Mirrors (head get : Call) : Prop where
  method : head.request.method = "HEAD" ∧ get.request.method = "GET"
  path : head.request.path = get.request.path
  route : get.request.path = liveRoute ∨ get.request.path = readyRoute
  limit : head.limit = get.limit

/-- **HEAD is answered as GET, without the body.**

In the same state the two have the same outcome, with the same status and headers, or else the same panic;
they take the same time, the same is logged, and they leave the same state: the same tasks with the same
events, and the same metrics. GET itself is never answered without a body. Any other request is answered at
once with 404 or 405; nothing is logged, and the state is what it was. -/
theorem head_mirrors_get (h : HealthHandler) (s : HealthState) :
    (∀ head get : Call, Mirrors head get →
      h.handle head s = ((h.handle get s).1.mapResponse Response.bodiless, (h.handle get s).2) ∧
      ∀ x, (h.handle get s).1.outcome = .answered x → x.body ≠ []) ∧
    ∀ c : Call, ¬ AsksHealth c.request → ∃ x : Response,
      h.handle c s = ({ outcome := .answered x }, s) ∧ (x.status = 404 ∨ x.status = 405) := by
  refine ⟨fun head get hm => ⟨?_, fun x => ?_⟩, fun c hc => handle_of_not_asksHealth h s hc⟩
  · have hasks : AsksHealth head.request := ⟨by rw [hm.path]; exact hm.route, Or.inr hm.method.1⟩
    obtain ⟨hpath, hlimit, -⟩ := inFull_same head
    have hfull : h.handle head.inFull s = h.handle get s :=
      handle_of_same h s ((method_inFull hasks).trans hm.method.2.symm) (hpath.trans hm.path)
        (hlimit.trans hm.limit)
    have hbodiless : forMethod head.request = Response.bodiless :=
      funext fun x => forMethod_of_head x hm.method.1
    rw [handle_of_asksHealth h s hasks, hfull, hbodiless]
  · exact body_ne_nil_of_get h s hm.method.2 hm.route

/-- A load balancer that asks with HEAD sees that a check fails, like everybody who asks with GET. -/
theorem head_mirrors_get_down :
    let h := ({} : Config).handler [⟨"db", .finish ⟨.error, some "down"⟩⟩] false ⟨"here", 0, ⟨0, 0⟩⟩
    let ask (method : String) : Call :=
      ⟨{ method := method, path := "/health/ready" }, none, fun _ => ⟨0, 0, 1, by decide⟩, none⟩
    ∃ x, (h.handle (ask "GET") {}).1.outcome = .answered x ∧ x.status = 503 ∧ x.body ≠ [] ∧
      (h.handle (ask "HEAD") {}).1.outcome = .answered { x with body := [] } ∧
      (h.handle (ask "HEAD") {}).2 = (h.handle (ask "GET") {}).2 ∧
      (h.handle (ask "POST") {}).2 = {} := by
  intro h ask
  obtain ⟨hmirrors, helsewhere⟩ := head_mirrors_get h {}
  obtain ⟨hhead, hbody⟩ := hmirrors (ask "HEAD") (ask "GET") ⟨⟨rfl, rfl⟩, rfl, Or.inr rfl, rfl⟩
  have heval := Readiness.evaluate_of_run_eq h.ready ({} : Contexts).background.2 (entered {})
    ((Pool.run_of_step rfl rfl).trans (Pool.run_of_enough rfl)) rfl
  have hroute : routeOf (ask "GET").request = .ready := rfl
  have hget := congrArg Prod.fst (handle_ready h {} hroute heval)
  obtain ⟨x, hx, hstatus⟩ : ∃ x, (h.handle (ask "GET") {}).1.outcome = .answered x ∧ x.status = 503 :=
    ⟨_, congrArg Reply.outcome hget, rfl⟩
  have hrefused : ¬ AsksHealth (ask "POST").request := fun hasks => absurd hasks.method (by decide)
  obtain ⟨y, hpost, -⟩ := helsewhere (ask "POST") hrefused
  refine ⟨x, hx, hstatus, hbody x hx, ?_, ?_, congrArg Prod.snd hpost⟩
  · rw [hhead]
    simp only [Reply.mapResponse, hx]
    rfl
  · rw [hhead]

/-! ## Any number of requests -/

/-- With GET in place of HEAD a call leaves the same state, and logs the same. -/
theorem handle_inFull (c : Call) : (h.handle c.inFull s).2 = (h.handle c s).2 ∧
    (h.handle c.inFull s).1.entries = (h.handle c s).1.entries := by
  by_cases hc : AsksHealth c.request
  · rw [handle_of_asksHealth h s hc]
    refine ⟨rfl, ?_⟩
    unfold Reply.mapResponse
    split <;> rfl
  · obtain ⟨x, hx, -⟩ := handle_of_not_asksHealth h s hc
    obtain ⟨y, hy, -⟩ := handle_of_not_asksHealth h s (mt asksHealth_inFull.1 hc)
    rw [hx, hy]
    exact ⟨rfl, rfl⟩

/-- **In a whole history nobody can tell who has asked with HEAD**: with GET in place of it everything is
logged in the same way, and the state in the end is the same. -/
theorem history_inFull {xs : List (Transaction h.service)} {log : List Entry} {t : HealthState}
    (hist : History h.service s xs log t) :
    History h.service s (xs.map Transaction.inFull) log t := by
  induction hist with
  | start => exact .start
  | meanwhile _ hp ih => exact ih.meanwhile hp
  | @transaction xs log x _ ih =>
    obtain ⟨hafter, hentries⟩ := handle_inFull h x.before x.call
    have hstate : x.inFull.after = x.after := hafter
    have hjournal : x.inFull.journal = x.journal := by
      unfold Transaction.journal
      rw [hstate]
      exact congrArg (_ ++ ·) hentries
    rw [List.map_append, ← hstate, ← hjournal]
    exact .transaction (x := x.inFull) ih

end HealthHandler
end HealthService
