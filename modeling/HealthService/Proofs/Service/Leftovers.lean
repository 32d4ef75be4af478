import HealthService.Proofs.Service.Limits

/-!
# What is left over from earlier requests

A service around a health handler may be called again and again, and some of its callers may give up.  What
these leave behind goes on among the checks of later evaluations: it stays as it was left, and later
requests do not notice it.

* `Pool.Follows` — one pool comes after another one: contexts that are cancelled stay so, and tasks keep
  their contexts.  `follows_handle` is the step of one request, `settled_of_history` that of any number.
* `HealthHandler.Dropped` — **what an evaluation leaves behind that was given up**: it has counted nothing,
  its checks are on contexts that are cancelled, and `Silenced.of_follows` says that these stay so.
* `Service.Forgets` — **a request is answered as by a service that has just been set up**, whatever is left
  over; this holds of the handler and of all layers around it.
-/

namespace HealthService

open Pool

/-! ## Pools one after another -/

/-- A pool that comes after another one: what was cancelled in that one still is, and the tasks that were
there are on the same contexts. -/
structure Pool.Follows (p q : Pool) : Prop where
  length_le : p.contexts.nodes.length ≤ q.contexts.nodes.length
  canceled : ∀ n < p.contexts.nodes.length, p.contexts.isCanceled n = true →
    q.contexts.isCanceled n = true
  task : ∀ (k : Nat) (t : Task), p.tasks[k]? = some t → ∃ g, q.tasks[k]? = some { t with progress := g }

namespace Pool.Follows

variable {p q r : Pool}

theorem refl (p : Pool) : p.Follows p := ⟨le_rfl, fun _ _ h => h, fun _ t ht => ⟨t.progress, ht⟩⟩

theorem trans (h : p.Follows q) (h' : q.Follows r) : p.Follows r where
  length_le := h.length_le.trans h'.length_le
  canceled n hn hc := h'.canceled n (hn.trans_le h.length_le) (h.canceled n hn hc)
  task k t ht := by
    obtain ⟨g, hg⟩ := h.task k t ht
    obtain ⟨g', hg'⟩ := h'.task k _ hg
    exact ⟨g', hg'⟩

theorem of_passes (hp : p.contexts.WellFormed) (hq : Passes p q) : p.Follows q where
  length_le := (length_of_cancels (cancels_passes hq)).ge
  canceled _ _ hc := isCanceled_of_cancels (cancels_passes hq) hp hc
  task _ _ ht := task_passes hq ht

/-- New contexts and new tasks come after the old ones. -/
theorem of_append (p : Pool) (xs : List Contexts.Node) (ts : List Task) :
    p.Follows { p with contexts := ⟨p.contexts.nodes ++ xs⟩, tasks := p.tasks ++ ts } where
  length_le := by simp
  canceled n hn hc := (Contexts.isCanceled_append_old p.contexts xs hn).trans hc
  task k t ht := by
    have hk := (List.getElem?_eq_some_iff.1 ht).1
    exact ⟨t.progress, (List.getElem?_append_left hk).trans ht⟩

theorem of_launch (r : Readiness) (p : Pool) (parent : Context) : p.Follows (r.launch p parent) := by
  have hfollows := of_append p
    (⟨some parent.node, p.contexts.isCanceled parent.node⟩ :: r.checkNodes p parent)
    (r.checkers.mapIdx fun i c => c.begun (r.handed p parent i) p.now)
  rw [Readiness.launch_eq]
  simpa [Contexts.child] using hfollows

theorem of_cancelNode (hp : p.contexts.WellFormed) (n : Nat) :
    p.Follows { p with contexts := p.contexts.cancelNode n } where
  length_le := (Contexts.length_cancelNode _ _).ge
  canceled m _ hc := (Contexts.isCanceled_cancelNode hp n m).2 (Or.inl hc)
  task _ t ht := ⟨t.progress, ht⟩

end Pool.Follows

theorem Pool.plans_passes {p q : Pool} (h : Passes p q) (hp : p.plans = []) : q.plans = [] := by
  induction h with
  | refl => exact hp
  | tail _ hg ih =>
    rw [List.eq_nil_iff_forall_not_mem] at ih ⊢
    exact fun x hx => ih x (plans_goes hg x hx)

/-! ## States of a service -/

/-- A state of a service whose callers have planned nothing. -/
structure Settled (s : HealthState) : Prop where
  served : ∃ cs, Served s cs
  plans : s.pool.plans = []

namespace Settled

variable {s t : HealthState} {p : Pool}

theorem new (now : Time) : Settled { pool := { now := now } } := ⟨⟨[], .start now⟩, rfl⟩

theorem wellFormed (hs : Settled s) : s.pool.contexts.WellFormed := by
  obtain ⟨cs, hs⟩ := hs.served
  exact (apart_of_served hs).wellFormed

theorem passes (hs : Settled s) (hp : Passes s.pool p) : Settled { s with pool := p } where
  served := by
    obtain ⟨cs, hserved⟩ := hs.served
    refine ⟨cs, ?_⟩
    induction hp with
    | refl => exact hserved
    | @tail q _ _ hg ih => exact .goes (h := { s with pool := q }) ih hg
  plans := plans_passes hp hs.plans

/-- What is known of a state once a request has come in. -/
theorem entered (hs : Settled s) : ∃ cs, s.pool.contexts.background.2 ∈ cs ∧
    Served (HealthHandler.entered s) cs := by
  obtain ⟨cs, hserved⟩ := hs.served
  exact ⟨_, List.mem_cons_self, hserved.background⟩

theorem follows_entered (s : HealthState) : s.pool.Follows (HealthHandler.entered s).pool := by
  have hfollows := Follows.of_append s.pool [⟨none, false⟩] []
  rw [List.append_nil] at hfollows
  exact hfollows

/-- However an evaluation ends, it leaves a settled state that comes after the one it started in. -/
theorem ends (hs : Settled s) {r : Readiness} {v : Verdict} {entries : List Entry}
    (he : r.Ends s.pool.contexts.background.2 (HealthHandler.entered s) v t entries) :
    Settled t ∧ s.pool.Follows t.pool := by
  obtain ⟨cs, hmem, hserved⟩ := hs.entered
  obtain ⟨q, hq, heq⟩ := Readiness.passes_of_ends he
  have hlaunched := Readiness.apart_launch (r := r) (apart_of_served hserved) hmem
  have hwf := wellFormed_of_cancels (cancels_passes hq) hlaunched.wellFormed
  have hplans : q.plans = [] := by
    apply plans_passes hq
    rw [Readiness.plans_launch]
    exact hs.plans
  refine ⟨⟨⟨cs, hserved.evaluated hmem he⟩, ?_⟩, ?_⟩
  · rw [heq]
    exact hplans
  · rw [heq]
    apply (follows_entered s).trans
    apply (Follows.of_launch r _ s.pool.contexts.background.2).trans
    apply (Follows.of_passes hlaunched.wellFormed hq).trans
    exact Follows.of_cancelNode hwf _

end Settled

/-! ## Services around a handler -/

/-- A service around a health handler: all that it does to the state is done by the handler, at most
once. -/
def Service.Around (h : HealthHandler) (v : Service HealthState) : Prop :=
  ∀ c s, (v.call c s).2 = s ∨ ∃ d, (v.call c s).2 = (h.handle d s).2

section History

variable {h : HealthHandler} {v : Service HealthState} {s t : HealthState} {xs : List (Transaction v)}
  {log : List Entry}

/-- The state after a request comes after the state before it. -/
theorem HealthHandler.settled_handle (hs : Settled s) (c : Call) :
    Settled (h.handle c s).2 ∧ s.pool.Follows (h.handle c s).2.pool := by
  by_cases hroute : HealthHandler.routeOf c.request = .ready
  · rw [handle_of_ready hroute]
    exact hs.ends (h.ready.ends_evaluate s.pool.contexts.background.2 c.limit (entered s))
  · rw [(handle_of_not_ready hroute).2.1]
    exact ⟨hs, .refl _⟩

/-- **The state after any requests comes after the state before them.** -/
theorem settled_of_history (hv : v.Around h) (hs : Settled s) (hist : History v s xs log t) :
    Settled t ∧ s.pool.Follows t.pool := by
  induction hist with
  | start => exact ⟨hs, .refl _⟩
  | meanwhile _ hp ih =>
    obtain ⟨hsettled, hfollows⟩ := ih
    exact ⟨hsettled.passes hp, hfollows.trans (.of_passes hsettled.wellFormed hp)⟩
  | @transaction xs log x _ ih =>
    obtain ⟨hsettled, hfollows⟩ := ih
    rcases hv x.call x.before with hsame | ⟨d, hstep⟩
    · rw [Transaction.after, hsame]
      exact ⟨hsettled, hfollows⟩
    · rw [Transaction.after, hstep]
      obtain ⟨hsettled', hfollows'⟩ := h.settled_handle hsettled d
      exact ⟨hsettled', hfollows.trans hfollows'⟩

end History

/-! ## Checks that are left over -/

/-- The tasks of a pool from one place up to another one are on contexts that are cancelled. -/
def Pool.Silenced (p : Pool) (first last : Nat) : Prop :=
  ∀ k, first ≤ k → k < last → ∃ t, p.tasks[k]? = some t ∧
    p.contexts.error? t.context p.now = some .canceled

/-- What is silenced stays so. -/
theorem Pool.Silenced.of_follows {p q : Pool} {first last : Nat} (h : p.Silenced first last)
    (hlt : ∀ t ∈ p.tasks, t.context.node < p.contexts.nodes.length) (hq : p.Follows q) :
    q.Silenced first last := by
  intro k hfirst hlast
  obtain ⟨t, ht, hc⟩ := h k hfirst hlast
  obtain ⟨g, hg⟩ := hq.task k t ht
  rw [Contexts.error?_eq_canceled_iff] at hc
  refine ⟨_, hg, ?_⟩
  rw [Contexts.error?_eq_canceled_iff]
  exact hq.canceled _ (hlt t (List.mem_of_getElem? ht)) hc

/-- The checks of an evaluation that has ended, however it did, are on contexts that are cancelled. -/
theorem Readiness.silenced_of_ends {r : Readiness} {h h' : HealthState} {cs : List Context}
    {parent : Context} {v : Verdict} {entries : List Entry} (hp : h.pool.Apart cs)
    (hparent : parent ∈ cs) (he : r.Ends parent h v h' entries) :
    h'.pool.Silenced h.pool.tasks.length h'.pool.tasks.length := by
  intro k hfirst hlast
  have ht := List.getElem?_eq_getElem hlast
  obtain ⟨i, c, hi, hctx⟩ := context_of_ends he .refl hfirst ht
  refine ⟨_, ht, ?_⟩
  rw [Contexts.error?_eq_canceled_iff, hctx]
  exact isCanceled_of_ends hp hparent he .refl hi

/-- **An evaluation that was given up** has counted nothing and said nothing, and its checks are silenced. -/
structure HealthHandler.Dropped (h : HealthHandler) (s t : HealthState) : Prop where
  metrics : t.metrics = s.metrics
  tasks : t.pool.tasks.length = s.pool.tasks.length + h.ready.checkers.length
  silenced : t.pool.Silenced s.pool.tasks.length t.pool.tasks.length
  log : ∃ es, t.pool.log = s.pool.log ++ es ∧ ∀ e ∈ es, ¬ e.event.OfReadiness

namespace HealthHandler

variable {h : HealthHandler} {c : Call} {s : HealthState}

/-- A request is only abandoned while readiness is evaluated for it. -/
theorem dropped_of_abandoned (hs : Settled s) (habandoned : (h.handle c s).1.outcome = .abandoned) :
    (h.handle c s).1.entries = [] ∧ h.Dropped s (h.handle c s).2 := by
  by_cases hroute : routeOf c.request = .ready
  · rw [handle_of_ready hroute] at habandoned ⊢
    dsimp only at habandoned ⊢
    rw [abandoned_replyReady, Readiness.abandoned_iff] at habandoned
    obtain ⟨cs, hmem, hserved⟩ := hs.entered
    have hends := h.ready.ends_evaluate s.pool.contexts.background.2 c.limit (entered s)
    have hsilenced := Readiness.silenced_of_ends (apart_of_served hserved) hmem hends
    have hlog := Readiness.log_of_ends hends
    obtain ⟨q, hq, hpool⟩ := Readiness.passes_of_ends hends
    refine ⟨?_, ?_, ?_, hsilenced, hlog⟩
    · rw [Readiness.evaluate_of_open habandoned]
      rfl
    · rw [Readiness.evaluate_of_open habandoned]
      rfl
    · rw [hpool]
      show q.tasks.length = _
      rw [length_tasks_passes hq, Readiness.launch_eq, List.length_append, List.length_mapIdx]
      rfl
  · exact absurd habandoned (handle_of_not_ready hroute).1

end HealthHandler

/-! ## Requests afresh -/

/-- A service that has just been set up, at the same time and with some metrics. -/
def HealthState.anew (s : HealthState) (m : Metrics) : HealthState where
  pool := { now := s.pool.now }
  metrics := m

/-- A service forgets earlier requests: under a limit it says what it would say if it had just been set up,
whatever has been counted by then, and counts what it would count. -/
def Service.Forgets (v : Service HealthState) : Prop :=
  ∀ c l s m, c.limit = some l → Settled s → (v.call c s).1 = (v.call c (s.anew m)).1 ∧
    (v.call c s).2.metrics = (v.call c (s.anew s.metrics)).2.metrics

/-- **The health handler forgets earlier requests.** -/
theorem HealthHandler.forgets (h : HealthHandler) : h.service.Forgets := by
  intro c l s m hlimit hs
  show (h.handle c s).1 = (h.handle c (s.anew m)).1 ∧
    (h.handle c s).2.metrics = (h.handle c (s.anew s.metrics)).2.metrics
  cases hroute : routeOf c.request with
  | unknown =>
    rw [handle_unknown h s hroute, handle_unknown h _ hroute, handle_unknown h _ hroute]
    exact ⟨rfl, rfl⟩
  | notAllowed =>
    rw [handle_notAllowed h s hroute, handle_notAllowed h _ hroute, handle_notAllowed h _ hroute]
    exact ⟨rfl, rfl⟩
  | live =>
    rw [handle_live h s hroute, handle_live h _ hroute, handle_live h _ hroute]
    exact ⟨rfl, rfl⟩
  | ready =>
    obtain ⟨cs, hserved⟩ := hs.served
    have hsame := Readiness.evaluate_afresh (r := h.ready) hserved hs.plans l
    simp only [Readiness.seen, Prod.mk.injEq] at hsame
    obtain ⟨hverdict, hmetrics, hentries, hnow⟩ := hsame
    obtain ⟨hverdict', hentries', hpool⟩ := h.ready.evaluate_metrics ({} : Contexts).background.2 (some l)
      { now := s.pool.now, contexts := ({} : Contexts).background.1 } s.metrics m
    rw [handle_of_ready hroute, handle_of_ready hroute, handle_of_ready hroute, hlimit]
    dsimp only
    refine ⟨?_, hmetrics⟩
    rw [hverdict'] at hverdict
    rw [hentries'] at hentries
    rw [hpool] at hnow
    exact congr (congr (congrArg (replyReady c.request) hverdict) hentries)
      (congrArg (· - s.pool.now) hnow)

/-! ## Layers -/

namespace Layer

variable {layers : List Layer} {v : Service HealthState} {h : HealthHandler} {c : Call} {s : HealthState}

theorem forgets_wrap (layer : Layer) (hv : v.Forgets) : (wrap layer v).Forgets := by
  intro c l s m hlimit hs
  rw [call_wrap, call_wrap, call_wrap]
  cases hin : layer.inward c with
  | ok d =>
    obtain ⟨hreply, hmetrics⟩ := hv d l s m ((limit_of_inward hin).trans hlimit) hs
    exact ⟨congrArg (layer.outward c) hreply, hmetrics⟩
  | error r => exact ⟨rfl, rfl⟩

/-- **A service that forgets earlier requests does so within layers.** -/
theorem forgets_stack (layers : List Layer) (hv : v.Forgets) : (stack layers v).Forgets := by
  induction layers with
  | nil => exact hv
  | cons layer layers ih => exact forgets_wrap layer ih

theorem around_stack (layers : List Layer) (h : HealthHandler) : (stack layers h.service).Around h := by
  intro c s
  rw [state_stack]
  cases reached layers c with
  | none => exact Or.inl rfl
  | some d => exact Or.inr ⟨d, rfl⟩

/-- Layers by themselves abandon nothing. -/
theorem abandoned_stack : ((stack layers v).call c s).1.outcome = .abandoned ↔
    ∃ d, reached layers c = some d ∧ (v.call d s).1.outcome = .abandoned := by
  induction layers generalizing c with
  | nil => simp [stack, reached]
  | cons layer layers ih =>
    rw [call_stack_cons, reached]
    cases hin : layer.inward c with
    | ok d =>
      simp only [abandoned_outward]
      exact ih
    | error r => simp [answers_of_inward hin]

/-- What layers log of an abandoned request tells nothing of readiness. -/
theorem quiet_outward {layer : Layer} {r : Reply} (habandoned : r.outcome = .abandoned)
    (hquiet : ∀ e ∈ r.entries, ¬ e.event.OfReadiness) :
    ∀ e ∈ (layer.outward c r).entries, ¬ e.event.OfReadiness := by
  cases layer with
  | recovery =>
    have hsame : recover c.request r = r := by
      unfold recover
      rw [habandoned]
    rw [outward, hsame]
    exact hquiet
  | trace =>
    intro e he
    have hentries : (leaveTrace c.context c.ignored r).entries =
        c.ignored ++ r.early ++ c.context.span.enclose r.late := Reply.entries_mapResponse _ _
    rw [outward, hentries, List.append_assoc, List.mem_append, List.mem_append] at he
    rcases he with he | he | he
    · rcases c.ignored_cases with hnil | ⟨-, err, hone⟩
      · simp [hnil] at he
      · rw [hone, List.mem_singleton] at he
        subst he
        simp [Event.OfReadiness]
    · exact hquiet e (List.mem_append_left _ he)
    · obtain ⟨inner, hinner, rfl⟩ := List.mem_map.1 he
      exact hquiet inner (List.mem_append_right _ hinner)
  | logger =>
    have hsame : logResponse c.request r = r := by
      unfold logResponse
      rw [habandoned]
    rw [outward, hsame]
    exact hquiet
  | auth credentials => exact hquiet

theorem quiet_stack (habandoned : ((stack layers v).call c s).1.outcome = .abandoned)
    (hquiet : ∀ d, (v.call d s).1.outcome = .abandoned →
      ∀ e ∈ (v.call d s).1.entries, ¬ e.event.OfReadiness) :
    ∀ e ∈ ((stack layers v).call c s).1.entries, ¬ e.event.OfReadiness := by
  induction layers generalizing c with
  | nil => exact hquiet c habandoned
  | cons layer layers ih =>
    rw [call_stack_cons] at habandoned ⊢
    cases hin : layer.inward c with
    | ok d =>
      simp only [hin, abandoned_outward] at habandoned ⊢
      exact quiet_outward habandoned (ih habandoned)
    | error r =>
      simp only [hin] at habandoned
      exact absurd habandoned (answers_of_inward hin)

/-- **What becomes of a request to a stack that is given up.** -/
theorem dropped_of_abandoned (hs : Settled s)
    (habandoned : ((stack layers h.service).call c s).1.outcome = .abandoned) :
    h.Dropped s ((stack layers h.service).call c s).2 ∧
      ∀ e ∈ ((stack layers h.service).call c s).1.entries, ¬ e.event.OfReadiness := by
  obtain ⟨d, hd, hreply⟩ := abandoned_stack.1 habandoned
  constructor
  · rw [state_stack, hd]
    exact (HealthHandler.dropped_of_abandoned hs hreply).2
  · apply quiet_stack habandoned
    intro d hreply
    have hnone : (h.service.call d s).1.entries = [] :=
      (HealthHandler.dropped_of_abandoned hs hreply).1
    simp [hnone]

end Layer
end HealthService
