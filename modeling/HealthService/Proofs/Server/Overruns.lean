import HealthService.Proofs.Service.Leftovers

/-!
# Responses that take too long

A server with a write timeout waits for a response until the tick of that timeout, and then nobody waits for
the service any longer.

* `Server.answering_in_time` — a reply in time is the one that the service gives.
* `Server.answering_late` — any other is cut off at the tick, and the client is told so.
* `Server.cuts_off` — **both of these for all services that heed their callers**, and what it means for the
  checks, the metrics and later requests if the service is the health handler within any layers.
-/

namespace HealthService

open Pool

/-- The response that is sent in place of a late one is a problem, with the status for a service that is not
available. -/
theorem Service.isProblem_timeoutResponse : timeoutResponse.status = 503 ∧ timeoutResponse.IsProblem :=
  ⟨rfl, Problem.isProblem_plain rfl rfl⟩

namespace Server

section Bound

variable {σ : Type} {s : Server σ} {clock : σ → Time} {c : Call} {state : σ}

/-- By when a server wants the response to a request that comes in some state: the tick of its timer. -/
def due (s : Server σ) (clock : σ → Time) (state : σ) : Time :=
  (clock state).wakeUp ((clock state).sleepUntil s.settings.writeTimeout)

/-- Whether the service, if nobody stops it, is done with a request by then. -/
def InTime (s : Server σ) (clock : σ → Time) (c : Call) (state : σ) : Prop :=
  (s.service.call c state).1.outcome ≠ .abandoned ∧
    clock (s.service.call c state).2 ≤ s.due clock state

/-- What the service of a server is asked for under its write timeout. -/
def limited (s : Server σ) (clock : σ → Time) (c : Call) (state : σ) : Call :=
  { c with limit := some ((clock state).sleepUntil s.settings.writeTimeout) }

/-- What a server makes of a reply, if its time is up when nobody has waited for that. -/
def cut (r : Reply) (took : Duration) : Reply :=
  match r.outcome with
  | .abandoned => Service.lateReply r took
  | .expired => Service.lateReply r r.took
  | _ => r

theorem cut_of_abandoned {r : Reply} (h : r.outcome = .abandoned) (took : Duration) :
    cut r took = Service.lateReply r took := by
  rw [cut, h]

theorem cut_of_other {r : Reply} (habandoned : r.outcome ≠ .abandoned) (hexpired : r.outcome ≠ .expired)
    (took : Duration) : cut r took = r := by
  unfold cut
  cases h : r.outcome with
  | abandoned => exact absurd h habandoned
  | expired => exact absurd h hexpired
  | _ => rfl

/-- A server with a write timeout, in terms of its service under that limit. -/
theorem call_answering (hbound : s.settings.writeTimeout ≠ 0) (hnone : c.limit = none) :
    (s.answering clock).call c state =
      (cut (s.service.call (s.limited clock c state) state).1 (s.due clock state - clock state),
        (s.service.call (s.limited clock c state) state).2) := by
  have hresponse : s.settings.responseBound = some s.settings.writeTimeout := by
    rw [ServerSettings.responseBound, ServerSettings.bound?, if_neg hbound]
  have hpatient : ∀ now due, Service.givesUpBefore c now due = false := by
    intro now due
    rw [Service.givesUpBefore, hnone]
    rfl
  have hcall : ∀ x : Reply × σ, (match x.1.outcome with
      | .abandoned => (Service.lateReply x.1 (s.due clock state - clock state), x.2)
      | .expired => (Service.lateReply x.1 x.1.took, x.2)
      | _ => x) = (cut x.1 (s.due clock state - clock state), x.2) := by
    intro x
    unfold cut
    split <;> rfl
  rw [answering, hresponse, ← hcall]
  unfold Service.within
  simp only [hpatient]
  rfl

/-- **A reply in time is the one that the service gives.** -/
theorem answering_in_time (hbound : s.settings.writeTimeout ≠ 0)
    (hheeds : s.service.HeedsLimits clock) (hnone : c.limit = none) (hin : s.InTime clock c state)
    (hexpired : (s.service.call c state).1.outcome ≠ .expired) :
    (s.answering clock).call c state = s.service.call c state := by
  have hsame : s.service.call (s.limited clock c state) state = s.service.call c state :=
    hheeds.in_time c state _ hnone hin.1 hin.2
  rw [call_answering hbound hnone, hsame, cut_of_other hin.1 hexpired]

/-- **Any other reply is cut off at the tick.** -/
theorem answering_late (hbound : s.settings.writeTimeout ≠ 0) (hheeds : s.service.HeedsLimits clock)
    (hnone : c.limit = none) (hlate : ¬ s.InTime clock c state) :
    (s.service.call (s.limited clock c state) state).1.outcome = .abandoned ∧
      (s.answering clock).call c state =
        (Service.lateReply (s.service.call (s.limited clock c state) state).1
            (s.due clock state - clock state),
          (s.service.call (s.limited clock c state) state).2) ∧
      clock (s.service.call (s.limited clock c state) state).2 = s.due clock state := by
  have hstopped := hheeds.late c state ((clock state).sleepUntil s.settings.writeTimeout) hnone
    fun hreply => not_le.1 fun hle => hlate ⟨hreply, hle⟩
  have habandoned : (s.service.call (s.limited clock c state) state).1.outcome = .abandoned := hstopped.1
  refine ⟨habandoned, ?_, hstopped.2⟩
  rw [call_answering hbound hnone, cut_of_abandoned habandoned]

/-- What a server makes of the requests to it under its write timeout. -/
structure CutsOff (s : Server σ) (clock : σ → Time) : Prop where
  /-- A reply in time is the one that the service gives, unless that says itself that something within it
  took too long. -/
  in_time : ∀ c state, c.limit = none → s.InTime clock c state →
    (s.service.call c state).1.outcome ≠ .expired →
      (s.answering clock).call c state = s.service.call c state
  /-- Any other request is dropped at the tick, and the client is told so then. -/
  late : ∀ c state, c.limit = none → ¬ s.InTime clock c state → ∃ r next,
    s.service.call (s.limited clock c state) state = (r, next) ∧ r.outcome = .abandoned ∧
      clock next = s.due clock state ∧
      (s.answering clock).call c state = ({ r with
        outcome := .answered Service.timeoutResponse
        late := r.late ++ [⟨.responseTimedOut, []⟩]
        took := s.due clock state - clock state }, next)
  /-- The tick never comes before the timeout has passed, and it comes exactly then if all is a whole number
  of milliseconds. -/
  due : ∀ state, clock state + s.settings.writeTimeout < Time.horizon →
    clock state + s.settings.writeTimeout ≤ s.due clock state ∧
      (clock state % Duration.perMilli = 0 → s.settings.writeTimeout % Duration.perMilli = 0 →
        s.due clock state = clock state + s.settings.writeTimeout)

theorem cutsOff_of_heeds (hbound : s.settings.writeTimeout ≠ 0) (hheeds : s.service.HeedsLimits clock) :
    s.CutsOff clock where
  in_time _ _ hnone hin hexpired := answering_in_time hbound hheeds hnone hin hexpired
  late c state hnone hlate := by
    obtain ⟨habandoned, hcall, hclock⟩ := answering_late hbound hheeds hnone hlate
    exact ⟨_, _, rfl, habandoned, hclock, hcall⟩
  due _ hrange := Time.wakeUp_sleepUntil hrange

end Bound

/-! ## Servers of a health handler -/

section Health

variable {s : Server HealthState} {layers : List Layer} {h : HealthHandler} {c : Call}
  {state : HealthState} {x : Transaction (s.answering HealthState.clock)}

/-- What a server does to the state is done by its service. -/
theorem exists_state_answering {σ : Type} (s : Server σ) (clock : σ → Time) (c : Call) (state : σ) :
    ∃ d, ((s.answering clock).call c state).2 = (s.service.call d state).2 := by
  unfold answering
  split
  · unfold Service.within
    dsimp only
    split <;> exact ⟨_, rfl⟩
  · unfold Service.unbounded
    dsimp only
    split <;> exact ⟨_, rfl⟩

theorem around_answering (hservice : s.service = Layer.stack layers h.service) :
    (s.answering HealthState.clock).Around h := by
  intro c state
  obtain ⟨d, hd⟩ := exists_state_answering s HealthState.clock c state
  rw [hd, hservice]
  exact Layer.around_stack layers h d state

/-- **A server of a health handler forgets earlier requests.** -/
theorem answering_anew (hbound : s.settings.writeTimeout ≠ 0)
    (hservice : s.service = Layer.stack layers h.service) (hnone : c.limit = none)
    (hstate : Settled state) (m : Metrics) :
    ((s.answering HealthState.clock).call c state).1 =
        ((s.answering HealthState.clock).call c (state.anew m)).1 ∧
      ((s.answering HealthState.clock).call c state).2.metrics =
        ((s.answering HealthState.clock).call c (state.anew state.metrics)).2.metrics := by
  have hforgets : s.service.Forgets := by
    rw [hservice]
    exact Layer.forgets_stack layers h.forgets
  obtain ⟨hreply, hmetrics⟩ := hforgets (s.limited HealthState.clock c state) _ state m rfl hstate
  constructor
  · have hlimited : s.limited HealthState.clock c (state.anew m) = s.limited HealthState.clock c state :=
      rfl
    have hdue : s.due HealthState.clock (state.anew m) = s.due HealthState.clock state := rfl
    rw [call_answering hbound hnone, call_answering hbound hnone, hlimited, hdue, hreply]
    rfl
  · rw [call_answering hbound hnone, call_answering hbound hnone]
    exact hmetrics

/-- What becomes of a request for which readiness was being evaluated when its time was up. -/
structure Leaves (s : Server HealthState) (h : HealthHandler)
    (x : Transaction (s.answering HealthState.clock)) : Prop where
  /-- Nothing is counted, and the checks are on contexts that are cancelled. -/
  dropped : h.Dropped x.before x.after
  /-- The evaluation does not tell its verdict. -/
  journal : ∀ e ∈ x.journal, ¬ e.event.OfReadiness
  /-- The contexts of the checks stay cancelled, whatever requests come later, between these requests and
  while readiness is evaluated for them. -/
  silenced : ∀ ys log t, History (s.answering HealthState.clock) x.after ys log t →
    ∀ q, Passes t.pool q ∨ Passes
        (h.ready.launch (HealthHandler.entered t).pool t.pool.contexts.background.2) q →
      q.Silenced x.before.pool.tasks.length x.after.pool.tasks.length

/-- **A request that is cut off leaves nothing but silenced checks.** -/
theorem leaves_of_late (hbound : s.settings.writeTimeout ≠ 0)
    (hservice : s.service = Layer.stack layers h.service)
    (hbefore : Settled x.before) (hnone : x.call.limit = none)
    (hlate : ¬ s.InTime HealthState.clock x.call x.before) : s.Leaves h x := by
  have hheeds : s.service.HeedsLimits HealthState.clock := by
    rw [hservice]
    exact Layer.heedsLimits_stack layers h.heedsLimits
  obtain ⟨habandoned, hcall, -⟩ := answering_late hbound hheeds hnone hlate
  have hafter : x.after = (s.service.call (s.limited HealthState.clock x.call x.before) x.before).2 := by
    rw [Transaction.after, hcall]
  have hreply : x.reply = Service.lateReply
      (s.service.call (s.limited HealthState.clock x.call x.before) x.before).1
      (s.due HealthState.clock x.before - x.before.clock) := by
    rw [Transaction.reply, hcall]
  rw [hservice] at habandoned hafter hreply
  obtain ⟨hdropped, hquiet⟩ := Layer.dropped_of_abandoned hbefore habandoned
  rw [← hafter] at hdropped
  have haround := around_answering hservice
  have hsettled : Settled x.after := by
    have hlast : History (s.answering HealthState.clock) x.before ([] ++ [x]) ([] ++ x.journal) x.after :=
      .transaction .start
    exact (settled_of_history haround hbefore hlast).1
  refine ⟨hdropped, ?_, ?_⟩
  · intro e he
    rcases List.mem_append.1 he with he | he
    · obtain ⟨es, hes, hall⟩ := hdropped.log
      rw [hes, List.drop_left] at he
      exact hall e he
    · rw [hreply, Reply.entries, Service.lateReply, ← List.append_assoc, List.mem_append,
        List.mem_singleton] at he
      rcases he with he | rfl
      · exact hquiet e he
      · simp [Event.OfReadiness]
  · intro ys log t hist q hq
    obtain ⟨ht, hfollows⟩ := settled_of_history haround hsettled hist
    obtain ⟨cs, hserved⟩ := hsettled.served
    apply hdropped.silenced.of_follows (apart_of_served hserved).tasks_lt
    apply hfollows.trans
    rcases hq with hq | hq
    · exact .of_passes ht.wellFormed hq
    · obtain ⟨ds, hmem, hentered⟩ := ht.entered
      have hlaunched := Readiness.apart_launch (r := h.ready) (apart_of_served hentered) hmem
      apply (Settled.follows_entered t).trans
      apply (Follows.of_launch h.ready _ t.pool.contexts.background.2).trans
      exact .of_passes hlaunched.wellFormed hq

end Health

/-- **A server with a write timeout cuts off what takes longer**, and that makes no difference to anybody
else.

* For every service that heeds its callers: a reply in time is the service's own, unless something within it
  took too long.  Any other request is dropped at the tick of the timeout, and answered then with a problem of
  status 503.
* A health handler within any layers heeds its callers.  After any requests: if a request for readiness is cut
  off, nothing is counted for it, no verdict is told, and the contexts of its checks are cancelled from then
  on.  And any request is answered as by a server that has just been set up, at that time and with anything
  counted, and counts the same. -/
theorem cuts_off :
    (∀ {σ : Type} (s : Server σ) (clock : σ → Time), s.settings.writeTimeout ≠ 0 →
      s.service.HeedsLimits clock → s.CutsOff clock) ∧
    Service.timeoutResponse.status = 503 ∧ Service.timeoutResponse.IsProblem ∧
    ∀ (s : Server HealthState) (layers : List Layer) (h : HealthHandler),
      s.settings.writeTimeout ≠ 0 → s.service = Layer.stack layers h.service →
      s.service.HeedsLimits HealthState.clock ∧
      ∀ (now : Time) (xs : List (Transaction (s.answering HealthState.clock))) (log : List Entry)
        (x : Transaction (s.answering HealthState.clock)),
        History (s.answering HealthState.clock) { pool := { now := now } } xs log x.before →
        x.call.limit = none →
        (¬ s.InTime HealthState.clock x.call x.before → s.Leaves h x) ∧
        ∀ m : Metrics,
          x.reply = ((s.answering HealthState.clock).call x.call (x.before.anew m)).1 ∧
          x.after.metrics = ((s.answering HealthState.clock).call x.call
            (x.before.anew x.before.metrics)).2.metrics := by
  refine ⟨fun s clock hbound hheeds => cutsOff_of_heeds hbound hheeds,
    Service.isProblem_timeoutResponse.1, Service.isProblem_timeoutResponse.2,
    fun s layers h hbound hservice => ⟨?_, fun now xs log x hist hnone => ⟨fun hlate => ?_, fun m => ?_⟩⟩⟩
  · rw [hservice]
    exact Layer.heedsLimits_stack layers h.heedsLimits
  · have hbefore := (settled_of_history (around_answering hservice) (.new now) hist).1
    exact leaves_of_late hbound hservice hbefore hnone hlate
  · have hbefore := (settled_of_history (around_answering hservice) (.new now) hist).1
    exact answering_anew hbound hservice hnone hbefore m

/-- **A check that never ends costs its request the response after two seconds**, and the next one nothing. -/
theorem cuts_off_hanging_check :
    let h : HealthHandler := {
      live := ⟨"1", "test", "here", 0, ⟨0, 0⟩⟩
      ready := {
        checkers := [⟨"db", .race none false (.finish ⟨.ok, none⟩) fun _ => .finish ⟨.error, none⟩⟩]
        budgets := ⟨0, none⟩ } }
    let s : Server HealthState := {
      address := ⟨.v4 127 0 0 1, 8080⟩
      service := Layer.stack [.recovery, .trace, .logger] h.service
      identity := none
      settings := { writeTimeout := .ofSeconds 2 } }
    let x : Transaction (s.answering HealthState.clock) :=
      ⟨⟨{ path := "/health/ready" }, none, fun _ => ⟨0, 0, 1, by decide⟩, none⟩, {}⟩
    (∃ y, x.reply.outcome = .answered y ∧ y.status = 503) ∧ x.reply.took = .ofSeconds 2 ∧
      x.after.metrics = {} ∧ x.after.pool.Silenced 0 1 ∧
      ∀ c, c.limit = none → ((s.answering HealthState.clock).call c x.after).1 =
        ((s.answering HealthState.clock).call c (x.after.anew {})).1 := by
  intro h s x
  have hbound : s.settings.writeTimeout ≠ 0 := by decide
  have hlate : ¬ s.InTime HealthState.clock x.call x.before := by
    rintro ⟨hreply, -⟩
    apply hreply
    refine Layer.abandoned_stack.2 ⟨_, rfl, ?_⟩
    show (h.handle _ _).1.outcome = .abandoned
    rw [HealthHandler.handle_of_ready rfl]
    dsimp only
    rw [HealthHandler.abandoned_replyReady, Readiness.abandoned_iff, Readiness.isOver, Readiness.course,
      (Layer.enterTrace_fst x.call).2, run_of_stuck (p := h.ready.launch _ _) rfl rfl rfl]
    rfl
  obtain ⟨hcuts, -, -, hhealth⟩ := cuts_off
  obtain ⟨hheeds, hhistory⟩ := hhealth s _ h hbound rfl
  have hreplied := (hcuts s HealthState.clock hbound hheeds).late x.call x.before rfl hlate
  have hleaves := (hhistory 0 [] [] x .start rfl).1 hlate
  obtain ⟨r, next, -, -, hnow, hcall⟩ := hreplied
  have htick : s.due HealthState.clock x.before = 2000000000 := by decide
  have hlast : History (s.answering HealthState.clock) { pool := { now := 0 } } ([] ++ [x]) ([] ++ x.journal) x.after :=
      .transaction .start
  refine ⟨⟨Service.timeoutResponse, ?_, rfl⟩, ?_, hleaves.dropped.metrics, ?_, fun c hc => ?_⟩
  · rw [Transaction.reply, hcall]
  · rw [Transaction.reply, hcall, htick]
    rfl
  · have hsilenced := hleaves.dropped.silenced
    rwa [hleaves.dropped.tasks] at hsilenced
  · exact ((hhistory 0 _ _ ⟨c, x.after⟩ hlast hc).2 {}).1

end Server
end HealthService
