import HealthService.Proofs.Service.Tracing

/-!
# The journal of the service

A `Transaction` is a call and the state in which it comes; its journal is everything that is logged from
then on until the call is over, by whomever.  A `History` is a number of transactions, one after another,
with checks that are left over going on in between.

* `journal_enclosed` — **which events stand in the span of their request**: those that the layer for
  logging and the evaluation log, and no others.
* `reported` — a transaction is reported in its journal once, unless a check has panicked.
* `access_log` — **the access log of every history**: one event for each transaction that is reported, in
  their order.
-/

namespace HealthService

open Pool

/-! ## Events of the access log -/

/-- An event of the access log. -/
def Event.IsAccess (e : Event) : Prop := e.level = .info ∧ e.message = "http request"

instance : DecidablePred Event.IsAccess := fun _ => inferInstanceAs (Decidable (_ ∧ _))

/-- The access log of a journal. -/
def accesses (entries : List Entry) : List Event :=
  (entries.map Entry.event).filter fun e => e.IsAccess

/-- An event that reports with which status a request was answered. -/
structure Event.Reports (e : Event) (q : Request) (status : Nat) : Prop where
  isAccess : e.IsAccess
  method : e.fields.lookup "method" = some (.text q.method)
  path : e.fields.lookup "path" = some (.text q.path)
  status : e.fields.lookup "status" = some (.number status)

/-- A text that begins otherwise is another one. -/
theorem append_ne {a : String} (b s : String)
    (h : a.toList.head?.any (fun c => s.toList.head? ≠ some c) = true) : a ++ b ≠ s := by
  rintro rfl
  rw [String.toList_append] at h
  cases ha : a.toList with
  | nil =>
    rw [ha] at h
    cases h
  | cons c cs =>
    rw [ha] at h
    simp at h

/-- The access log holds the events that tell of a request as a whole. -/
theorem Event.isAccess_iff (e : Event) : e.IsAccess ↔
    ∃ method path status took remote userAgent,
      e = .request method path status took remote userAgent := by
  constructor
  · rintro ⟨-, hmessage⟩
    cases e with
    | request method path status took remote userAgent => exact ⟨_, _, _, _, _, _, rfl⟩
    | configLoaded file => exact absurd hmessage (append_ne _ _ (by decide))
    | metricsListening address path => exact absurd hmessage (append_ne _ _ (by simp))
    | serverStarting address tls => exact absurd hmessage (append_ne _ _ (by decide))
    | serverListening address tls =>
      cases tls <;> exact absurd hmessage (append_ne _ _ (by simp))
    | _ =>
      dsimp only [message] at hmessage
      exact absurd hmessage (by decide)
  · rintro ⟨method, path, status, took, remote, userAgent, rfl⟩
    exact ⟨rfl, rfl⟩

theorem Event.OfCheck.not_isAccess {e : Event} (h : e.OfCheck) : ¬ e.IsAccess := by
  rw [Event.isAccess_iff]
  rcases h with ⟨_, _, rfl⟩ | ⟨_, _, _, rfl⟩ <;> simp

theorem Event.OfReadiness.not_isAccess {e : Event} (h : e.OfReadiness) : ¬ e.IsAccess := by
  rw [Event.isAccess_iff]
  rcases h with ⟨_, rfl⟩ | ⟨_, rfl⟩ <;> simp

@[simp]
theorem accesses_append (es fs : List Entry) : accesses (es ++ fs) = accesses es ++ accesses fs := by
  simp [accesses]

theorem accesses_eq_nil {es : List Entry} (h : ∀ e ∈ es, ¬ e.event.IsAccess) : accesses es = [] := by
  simpa [accesses] using h

/-- What checks log is not in the access log. -/
theorem accesses_of_checks {es : List Entry} (h : ∀ e ∈ es, e.spans = [] ∧ e.event.OfCheck) :
    accesses es = [] :=
  accesses_eq_nil fun e he => (h e he).2.not_isAccess

/-- The spans around events make no difference to the access log. -/
@[simp]
theorem accesses_enclose (span : Span) (es : List Entry) :
    accesses (span.enclose es) = accesses es := by
  simp [accesses, Span.enclose, Function.comp_def]

/-! ## Transactions -/

/-- A call to a service and the state in which it comes. -/
structure Transaction (v : Service HealthState) where
  call : Call
  before : HealthState

namespace Transaction

variable {v : Service HealthState} (x : Transaction v)

/-- What the call is replied with. -/
def reply : Reply := (v.call x.call x.before).1

/-- The state after the call. -/
def after : HealthState := (v.call x.call x.before).2

/-- The checks that have been run for the call. -/
def checks : List Task := x.after.pool.tasks.drop x.before.pool.tasks.length

/-- Whether one of these checks has panicked. -/
def panics : Bool := x.checks.any fun u => u.progress.isPanic

/-- Everything that was logged during the call, first by checks. -/
def journal : List Entry :=
  x.after.pool.log.drop x.before.pool.log.length ++ x.reply.entries

/-- The response to the call, if it has one. -/
def response? : Option Response :=
  match x.reply.outcome with
  | .answered y => some y
  | _ => none

end Transaction

/-- The transactions of a service from some state on, one after another, and everything that is logged.
Between two of them time may pass, and checks that are left over go on. -/
inductive History (v : Service HealthState) (s : HealthState) :
    List (Transaction v) → List Entry → HealthState → Prop
  | start : History v s [] [] s
  | meanwhile {xs : List (Transaction v)} {log : List Entry} {t : HealthState} {p : Pool}
      (h : History v s xs log t) (hp : Passes t.pool p) :
      History v s xs (log ++ p.log.drop t.pool.log.length) { t with pool := p }
  | transaction {xs : List (Transaction v)} {log : List Entry} {x : Transaction v}
      (h : History v s xs log x.before) : History v s (xs ++ [x]) (log ++ x.journal) x.after

/-! ## Sealed replies -/

/-- What is logged while the traceparent of a request is read: nothing, unless it is not in order. -/
theorem Call.ignored_cases (call : Call) : call.ignored = [] ∨
    (∀ p, ¬ TraceContext.Brought call.request.headers p) ∧
      ∃ err, call.ignored = [⟨.invalidTraceparent err, []⟩] := by
  have hignored : call.ignored = (TraceContext.parent call.request.headers).2 := by
    unfold ignored TraceContext.ofHeaders
    split <;> simp_all
  have hbrought := @TraceContext.parent_eq_some_iff call.request.headers
  rw [hignored]
  unfold TraceContext.parent at hbrought ⊢
  split
  · exact Or.inl rfl
  · split
    · exact Or.inl rfl
    · rename_i text htext _ e hparse
      simp only [htext, hparse] at hbrought
      refine Or.inr ⟨fun p hp => ?_, _, rfl⟩
      cases hbrought.2 hp

/-- The events that stand outside the span of their request, and when there are any: the traceparent is
read before there is a span, the checks are tasks of their own, and panics are recovered from behind it. -/
inductive Event.StandsOutside (call : Call) (checks : List Task) : Event → Prop
  | ignored (err : String) (hnone : ∀ p, ¬ TraceContext.Brought call.request.headers p) :
      StandsOutside call checks (.invalidTraceparent err)
  | check {e : Event} (h : e.OfCheck) : StandsOutside call checks e
  | recovered (error : String) (hpanic : (checks.any fun u => u.progress.isPanic) = true) :
      StandsOutside call checks (.panicRecovered error call.request.method call.request.path)

namespace Reply.Sealed

variable {call : Call} {checks : List Task} {r : Reply}

theorem early_eq (h : r.Sealed call checks) : r.early = call.ignored := by
  cases h <;> rfl

/-- Where the events of a sealed reply stand. -/
theorem enclosed (h : r.Sealed call checks) {e : Entry} (he : e ∈ r.entries) :
    e.spans = [call.context.span] ∧ (e.event.IsAccess ∨ e.event.OfReadiness) ∨
      e.spans = [] ∧ e.event.StandsOutside call checks := by
  rcases List.mem_append.1 he with he | he
  · rw [h.early_eq] at he
    rcases call.ignored_cases with hnil | ⟨hnone, err, hone⟩
    · rw [hnil] at he
      cases he
    · rw [hone, List.mem_singleton] at he
      rw [he]
      exact Or.inr ⟨rfl, .ignored err hnone⟩
  · cases h with
    | @answered x late took _ _ _ hlate =>
      obtain ⟨inner, hinner, rfl⟩ := List.mem_map.1 he
      rcases List.mem_append.1 hinner with hinner | hinner
      · obtain ⟨hspans, hready⟩ := hlate inner hinner
        exact Or.inl ⟨by rw [hspans], Or.inr hready⟩
      · rw [List.mem_singleton.1 hinner]
        exact Or.inl ⟨rfl, Or.inl ⟨rfl, rfl⟩⟩
    | panicked payload took hpanic =>
      rw [List.mem_singleton.1 he]
      exact Or.inr ⟨rfl, .recovered _ hpanic⟩
    | abandoned took => cases he

/-- A sealed reply is reported once, or there is a reason why not. -/
theorem accesses_cases (h : r.Sealed call checks) :
    (∃ x e, r.outcome = .answered x ∧ (checks.any fun u => u.progress.isPanic) = false ∧
        accesses r.entries = [e] ∧ e.Reports call.request x.status) ∨
      accesses r.entries = [] ∧
        ((checks.any fun u => u.progress.isPanic) = true ∨ r.outcome = .abandoned) := by
  have hearly : accesses r.early = [] := by
    rw [h.early_eq]
    rcases call.ignored_cases with hnil | ⟨-, err, hone⟩
    · rw [hnil]
      rfl
    · rw [hone]
      rfl
  rw [Reply.entries, accesses_append, hearly, List.nil_append]
  cases h with
  | @answered x late took _ _ hcalm hlate =>
    have hquiet : accesses late = [] := accesses_eq_nil fun e he => (hlate e he).2.not_isAccess
    refine Or.inl ⟨_, (Layer.requestEntry call.request x took).event, rfl, hcalm, ?_, ?_⟩
    · rw [accesses_enclose, accesses_append, hquiet]
      rfl
    · exact ⟨⟨rfl, rfl⟩, rfl, rfl, rfl⟩
  | panicked payload took hpanic => exact Or.inr ⟨rfl, Or.inl hpanic⟩
  | abandoned took => exact Or.inr ⟨rfl, Or.inr rfl⟩

end Reply.Sealed

/-! ## Transactions with the service -/

namespace Transaction

variable {c : Config} {checkers : List Checker} {metered : Bool} {self : Identity}
  (x : Transaction (c.service checkers metered self))

theorem within : Reply.Within (Reply.Sealed x.call) x.before x.after x.reply :=
  Config.service_within rfl

/-- What checks log during a call stands in no span. -/
theorem checks_log : ∀ e ∈ x.after.pool.log.drop x.before.pool.log.length,
    e.spans = [] ∧ e.event.OfCheck := by
  obtain ⟨es, hes, hall⟩ := x.within.log
  rwa [hes, List.drop_left]

/-- **Which events stand in the span of their request**, among all that is logged during a call, whatever
the checkers do: the event that reports the request and the one that tells of readiness stand in the
span of its trace context and in no other.  All others stand in none, and these are the events of checks,
an invalid traceparent and a panic. -/
theorem journal_enclosed {e : Entry} (he : e ∈ x.journal) :
    e.spans = [x.call.context.span] ∧ (e.event.IsAccess ∨ e.event.OfReadiness) ∨
      e.spans = [] ∧ e.event.StandsOutside x.call x.checks := by
  rcases List.mem_append.1 he with he | he
  · obtain ⟨hspans, hcheck⟩ := x.checks_log e he
    exact Or.inr ⟨hspans, .check hcheck⟩
  · exact x.within.reply.enclosed he

/-- The event that reports a request is enclosed. -/
theorem journal_enclosed_alive :
    let self : Identity := ⟨"here", 0, ⟨0, 0⟩⟩
    let x : Transaction (({} : Config).service [] false self) :=
      ⟨⟨{ path := "/health/live" }, none, fun _ => ⟨0, 0, 1, by decide⟩, none⟩, {}⟩
    ∃ e ∈ x.journal, e.event.IsAccess ∧ e.spans = [x.call.context.span] := by
  intro self x
  let e : Entry := ⟨.request "GET" "/health/live" 200 0 "" "", [x.call.context.span]⟩
  have hjournal : x.journal = [e] := rfl
  have he : e ∈ x.journal := by simp [hjournal]
  rcases x.journal_enclosed he with ⟨hspans, -⟩ | ⟨hspans, -⟩
  · exact ⟨e, he, ⟨rfl, rfl⟩, hspans⟩
  · cases hspans

/-- **What a check logs is not enclosed, and neither is what tells of a panic.** -/
theorem check_outside_span :
    let self : Identity := ⟨"here", 0, ⟨0, 0⟩⟩
    let checkers : List Checker := [⟨"a", .finish ⟨.ok, none⟩⟩, ⟨"b", .panic (.text "boom")⟩]
    let x : Transaction (({} : Config).service checkers false self) :=
      ⟨⟨{ path := "/health/ready" }, none, fun _ => ⟨0, 0, 1, by decide⟩, none⟩, {}⟩
    ⟨.checkFinished "a" .ok 0, []⟩ ∈ x.journal ∧
      ⟨.panicRecovered "boom" "GET" "/health/ready", []⟩ ∈ x.journal := by
  intro self checkers x
  obtain ⟨hreply, hlog⟩ := @Config.service_of_panic self x.call rfl rfl
  have hjournal : x.journal = [⟨.checkFinished "a" .ok 0, []⟩,
      ⟨.panicRecovered "boom" "GET" "/health/ready", []⟩] := by
    rw [journal, reply, after, hreply, hlog]
    rfl
  simp [hjournal]

/-- Whether a transaction is reported: it has a response, and no check has panicked. -/
def isReported : Bool := !x.panics && x.response?.isSome

/-- An event reports the response to the request. -/
def ReportedBy (e : Event) : Prop := ∃ y, x.response? = some y ∧ e.Reports x.call.request y.status

/-- **A transaction is reported in its journal once, unless a check has panicked.** -/
theorem reported :
    if x.isReported then ∃ e, accesses x.journal = [e] ∧ x.ReportedBy e
    else accesses x.journal = [] := by
  have hjournal : accesses x.journal = accesses x.reply.entries := by
    rw [journal, accesses_append, accesses_of_checks x.checks_log, List.nil_append]
  rw [hjournal]
  rcases x.within.reply.accesses_cases with ⟨y, e, hy, hcalm, he, hreports⟩ | ⟨hnone, hpanic | hout⟩
  · have hresponse : x.response? = some y := by rw [response?, hy]
    have hcalm : x.panics = false := hcalm
    rw [isReported, hcalm, hresponse, if_pos (by simp)]
    exact ⟨e, he, y, hresponse, hreports⟩
  · have hpanic : x.panics = true := hpanic
    rwa [isReported, hpanic, if_neg (by simp)]
  · have hresponse : x.response? = none := by rw [response?, hout]
    rwa [isReported, hresponse, if_neg (by simp)]

end Transaction

/-- **The access log of every history**, whatever the checkers do.

* A transaction that has a response is reported once in its own journal, with the method and the path of
  the request and the status of that response, unless one of its checks has panicked.
* A transaction with such a check is not reported at all, although its response is logged as a panic, and
  neither is one that nobody has waited for.
* All that is ever logged holds no more reports than these, and they stand in the order of the
  transactions. -/
theorem access_log {c : Config} {checkers : List Checker} {metered : Bool} {self : Identity}
    {s t : HealthState} {xs : List (Transaction (c.service checkers metered self))} {log : List Entry}
    (h : History (c.service checkers metered self) s xs log t) :
    (∀ x ∈ xs, if x.isReported then ∃ e, accesses x.journal = [e] ∧ x.ReportedBy e
      else accesses x.journal = []) ∧
    List.Forall₂ (fun x e => x.ReportedBy e) (xs.filter Transaction.isReported) (accesses log) := by
  refine ⟨fun x _ => x.reported, ?_⟩
  induction h with
  | start => exact .nil
  | meanwhile _ hp ih =>
    obtain ⟨es, hes, hall⟩ := log_passes hp
    rwa [hes, List.drop_left, accesses_append, accesses_of_checks hall, List.append_nil]
  | @transaction xs log x _ ih =>
    have hreported := x.reported
    rw [List.filter_append, accesses_append]
    apply List.rel_append ih
    cases hx : x.isReported with
    | true =>
      rw [if_pos hx] at hreported
      obtain ⟨e, he, hreports⟩ := hreported
      rw [he, List.filter_singleton, hx]
      exact .cons hreports .nil
    | false =>
      rw [if_neg (by simp [hx])] at hreported
      rw [hreported, List.filter_singleton, hx]
      exact .nil

/-- Two requests that are answered with different statuses. -/
theorem access_log_of_two :
    let v := ({} : Config).service [] false ⟨"here", 0, ⟨0, 0⟩⟩
    let x : Transaction v :=
      ⟨⟨{ path := "/health/live" }, none, fun _ => ⟨0, 0, 1, by decide⟩, none⟩, {}⟩
    let y : Transaction v :=
      ⟨⟨{ path := "/nowhere" }, none, fun _ => ⟨0, 0, 1, by decide⟩, none⟩, {}⟩
    ∃ log t e f, History v {} [x, y] log t ∧ accesses log = [e, f] ∧
      e.Reports x.call.request 200 ∧ f.Reports y.call.request 404 := by
  intro v x y
  have hhistory : History v {} [x, y] _ y.after := .transaction (x := y) (.transaction (x := x) .start)
  have hlog := (access_log hhistory).2
  have hall : [x, y].filter Transaction.isReported = [x, y] := rfl
  rw [hall, List.forall₂_cons_left_iff] at hlog
  obtain ⟨e, es, ⟨_, hx, he⟩, hes, hlog⟩ := hlog
  obtain ⟨f, fs, ⟨_, hy, hf⟩, hfs, rfl⟩ := List.forall₂_cons_left_iff.1 hes
  cases hfs
  obtain rfl := Option.some.inj hx
  obtain rfl := Option.some.inj hy
  exact ⟨_, _, e, f, hhistory, hlog, he, hf⟩

/-- **A request is answered but not reported when a check panics.** -/
theorem unreported_after_panic :
    let self : Identity := ⟨"here", 0, ⟨0, 0⟩⟩
    let checkers : List Checker := [⟨"a", .finish ⟨.ok, none⟩⟩, ⟨"b", .panic (.text "boom")⟩]
    let x : Transaction (({} : Config).service checkers false self) :=
      ⟨⟨{ path := "/health/ready" }, none, fun _ => ⟨0, 0, 1, by decide⟩, none⟩, {}⟩
    x.response?.map Response.status = some 500 ∧ accesses x.journal = [] := by
  intro self checkers x
  obtain ⟨hreply, hlog⟩ := @Config.service_of_panic self x.call rfl rfl
  rw [Transaction.journal, Transaction.response?, Transaction.reply, Transaction.after, hreply, hlog]
  exact ⟨rfl, rfl⟩

end HealthService
