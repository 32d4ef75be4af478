import HealthService.Config.Validate
import HealthService.Proofs.Auth.Credentials
import HealthService.Proofs.Service.Journal

/-!
# Who is let in

A configuration may ask for a name and a password.  Who shows them finds the service as if nothing were
asked for, and everybody else gets one and the same answer.

* `opens_to_shown` — **the configured name and password are shown to good effect**, unless there is a colon
  in the name: such a name is read back as a shorter one, which only a collision of digests would admit.
* `call_of_stranger` — what becomes of a request that is not let in.
* `strangers_alike` — **who is not let in learns nothing**: neither what the service checks, nor what it has
  done before, nor which paths and methods it knows.
-/

namespace HealthService

namespace Config

variable {c : Config} {a : Config.Auth} {call : Call}

/-! ## Those who are let in -/

/-- A request is let in if its first authorization header shows the credentials. -/
theorem admits_of_auth (hauth : c.auth = some a) (q : Request) :
    c.admits q = a.credentials.admits (q.headers.first? "authorization") := by
  rw [admits, hauth, Option.all_some]

/-- **Who is let in finds the service as if nothing were asked for.** -/
theorem call_of_admitted (hadmits : c.admits call.request = true) (checkers : List Checker)
    (metered : Bool) (self : Identity) (s : HealthState) :
    (c.service checkers metered self).call call s =
      (({ c with auth := none } : Config).service checkers metered self).call call s := by
  have hopen : ({ c with auth := none } : Config).admits call.request = true := rfl
  have hhandler : (({ c with auth := none } : Config).handler checkers metered self) =
      c.handler checkers metered self := rfl
  rw [call_service, call_service, guarded_of_admitted _ _ _ _ _ _ hadmits,
    guarded_of_admitted _ _ _ _ _ _ hopen, hhandler]

/-- **What becomes of the configured name and password**, when they are shown in the first authorization
header of a request, whatever else it asks for, in any state and whatever the checkers do.

* If there is no colon in the name, the request is let in: it is answered as by the service of the same
  configuration that asks for nothing.
* If there is one, the request is let in only if some other name has the same digest. -/
theorem opens_to_shown (hauth : c.auth = some a)
    (hshown : call.request.headers.first? "authorization" =
      some (Credentials.shown a.username a.password))
    (checkers : List Checker) (metered : Bool) (self : Identity) (s : HealthState) :
    (':' ∉ a.username.toList → c.admits call.request = true ∧
      (c.service checkers metered self).call call s =
        (({ c with auth := none } : Config).service checkers metered self).call call s) ∧
    (':' ∈ a.username.toList → c.admits call.request = true →
      ∃ name, name ≠ a.username ∧ Credentials.digest name = Credentials.digest a.username) := by
  have hadmits_iff : c.admits call.request = true ↔ ∃ name word,
      Credentials.decode (Credentials.shown a.username a.password) = some (name, word) ∧
        Credentials.digest a.username = Credentials.digest name ∧
        Credentials.digest a.password = Credentials.digest word := by
    rw [admits_of_auth hauth, hshown]
    exact Credentials.admits_new_iff
  constructor
  · intro hcolon
    have hread := Credentials.decode_shown_of_notMem hcolon a.password
    have hadmits : c.admits call.request = true := hadmits_iff.2 ⟨_, _, hread, rfl, rfl⟩
    exact ⟨hadmits, call_of_admitted hadmits checkers metered self s⟩
  · intro hcolon hadmits
    obtain ⟨name, word, hread, hname, -⟩ := hadmits_iff.1 hadmits
    obtain ⟨name', word', hread', hne⟩ := Credentials.decode_shown_of_mem hcolon a.password
    obtain ⟨rfl, rfl⟩ : name = name' ∧ word = word' := by simpa [hread] using hread'
    exact ⟨name, hne, hname.symm⟩

/-- The header that is written `Basic b3BzOnMzY3JldA==` opens the routes. -/
theorem opens_to_ops :
    let c : Config := { auth := some ⟨"ops", "s3cret", none⟩ }
    let call : Call := {
      request := {
        path := "/health/live"
        headers := [("authorization", Utf8.ofString "Basic b3BzOnMzY3JldA==")] }
      draws := fun _ => ⟨0, 0, 1, by decide⟩ }
    let self : Identity := ⟨"here", 0, ⟨0, 0⟩⟩
    c.validate.1.isOk = true ∧
      ∃ x, ((c.service [] false self).call call {}).1.outcome = .answered x ∧ x.status = 200 := by
  intro c call self
  have hshown : call.request.headers.first? "authorization" =
      some (Credentials.shown "ops" "s3cret") := by decide
  obtain ⟨-, hcall⟩ := (opens_to_shown (c := c) rfl hshown [] false self {}).1 (by decide)
  refine ⟨by decide, ?_⟩
  rw [hcall, call_service]
  exact ⟨_, rfl, rfl⟩

/-- **A name with a colon locks its owner out**: the configuration is valid, and the header shows what it
asks for. -/
theorem locked_out_by_colon :
    let c : Config := { auth := some ⟨"a:b", "c", none⟩ }
    let call : Call := {
      request := {
        path := "/health/live"
        headers := [("authorization", Credentials.shown "a:b" "c")] }
      draws := fun _ => ⟨0, 0, 1, by decide⟩ }
    let self : Identity := ⟨"here", 0, ⟨0, 0⟩⟩
    c.validate.1.isOk = true ∧
      ∃ x, ((c.service [] false self).call call {}).1.outcome = .answered x ∧ x.status = 401 := by
  intro c call self
  have hstranger : c.admits call.request = false := by decide +kernel
  obtain ⟨credentials, hguarded⟩ := guarded_of_stranger c [] false self call {} hstranger
  refine ⟨by decide, ?_⟩
  rw [call_service, hguarded]
  exact ⟨_, rfl, rfl⟩

end Config

/-! ## Those who are not -/

namespace Headers

/-- Header lines apart from those that tell of a trace. -/
def withoutTrace (h : Headers) : Headers :=
  h.filter fun l => l.1 ≠ "traceparent" ∧ l.1 ≠ "tracestate"

/-- A line that tells of a trace makes no difference to the others. -/
theorem withoutTrace_insert (h : Headers) {name : String} (value : Bytes)
    (hname : name = "traceparent" ∨ name = "tracestate") :
    (h.insert name value).withoutTrace = h.withoutTrace := by
  have hnew : withoutTrace [(name, value)] = [] := by
    rcases hname with rfl | rfl
    · simp [withoutTrace]
    · simp [withoutTrace]
  have hold : (h.erase name).withoutTrace = h.withoutTrace := by
    unfold withoutTrace erase
    rw [List.filter_filter]
    apply List.filter_congr
    intro l _
    rcases hname with rfl | rfl
    · by_cases hl : l.1 = "traceparent" <;> simp [hl]
    · by_cases hl : l.1 = "tracestate" <;> simp [hl]
  have happend : (h.insert name value).withoutTrace =
      (h.erase name).withoutTrace ++ withoutTrace [(name, value)] := List.filter_append ..
  rw [happend, hnew, hold, List.append_nil]

theorem withoutTrace_insert? (h : Headers) {name : String} (value : Option Bytes)
    (hname : name = "traceparent" ∨ name = "tracestate") :
    (h.insert? name value).withoutTrace = h.withoutTrace := by
  cases value with
  | none => rfl
  | some value => exact h.withoutTrace_insert value hname

end Headers

/-- A trace makes no difference to the other header lines. -/
theorem Layer.withoutTrace_writeTrace (t : TraceContext) (h : Headers) :
    (writeTrace t h).withoutTrace = h.withoutTrace := by
  rw [writeTrace, Headers.withoutTrace_insert? _ _ (Or.inr rfl),
    Headers.withoutTrace_insert? _ _ (Or.inl rfl)]

namespace Transaction

variable {v : Service HealthState}

/-- A transaction that leaves everything as it was: no check is run, nothing is counted, and nobody is told
of readiness. -/
structure Uneventful (x : Transaction v) : Prop where
  checks : x.checks = []
  metrics : x.after.metrics = x.before.metrics
  state : x.after = x.before
  quiet : ∀ e ∈ x.journal, ¬ e.event.OfReadiness ∧ ¬ e.event.OfCheck

/-- Two transactions are answered alike: with the same status and body, and the same header lines apart
from those that tell of a trace, which show the trace of the one and of the other request. -/
def AnsweredAlike {w : Service HealthState} (x : Transaction v) (y : Transaction w) : Prop :=
  ∃ a b, x.reply.outcome = .answered a ∧ y.reply.outcome = .answered b ∧ a.status = b.status ∧
    a.body = b.body ∧ a.headers.withoutTrace = b.headers.withoutTrace ∧ a.Traced x.call.context ∧
    b.Traced y.call.context

end Transaction

namespace Config

/-- The response to a stranger, with the trace of the request. -/
def Auth.refused (a : Config.Auth) (call : Call) : Response :=
  { Layer.unauthorized a.credentials with
    headers := Layer.writeTrace call.context (Layer.unauthorized a.credentials).headers }

/-- What a stranger is replied with. -/
def Auth.refusal (a : Config.Auth) (call : Call) : Reply where
  outcome := .answered (a.refused call)
  early := call.ignored
  late := call.context.span.enclose
    [Layer.requestEntry call.request (Layer.unauthorized a.credentials) 0]

/-- The response to a stranger is the same for all, apart from the trace. -/
theorem Auth.withoutTrace_refused (a : Config.Auth) (call : Call) :
    (a.refused call).headers.withoutTrace =
      (Layer.unauthorized a.credentials).headers.withoutTrace :=
  Layer.withoutTrace_writeTrace _ _

theorem Auth.traced_refused (a : Config.Auth) (call : Call) :
    (a.refused call).Traced call.context := by
  have hplain : (Layer.unauthorized a.credentials).Untraced :=
    (Response.Untraced.ofProblem _).insert (by decide) (by decide) _
  exact Layer.traced_writeTrace hplain call

/-- **What becomes of a request that is not let in**, in any state and whatever the checkers are. -/
theorem call_of_stranger {c : Config} {a : Config.Auth} (hauth : c.auth = some a) {call : Call}
    (hstranger : c.admits call.request = false) (checkers : List Checker) (metered : Bool)
    (self : Identity) (s : HealthState) :
    (c.service checkers metered self).call call s = (a.refusal call, s) := by
  rw [admits_of_auth hauth] at hstranger
  rw [call_service, guarded_call, hauth]
  simp only [hstranger, Bool.false_eq_true, if_false]
  rw [Auth.refusal, ← List.append_nil call.ignored]
  rfl

end Config

namespace Transaction

variable {c c' : Config} {checkers checkers' : List Checker} {metered metered' : Bool}
  {self self' : Identity}

theorem uneventful_of_stranger {a : Config.Auth} (hauth : c.auth = some a)
    (x : Transaction (c.service checkers metered self))
    (hx : c.admits x.call.request = false) : x.Uneventful := by
  have hcall := Config.call_of_stranger hauth hx checkers metered self x.before
  have hstate : x.after = x.before := congrArg Prod.snd hcall
  have hreply : x.reply = a.refusal x.call := congrArg Prod.fst hcall
  refine ⟨?_, by rw [hstate], hstate, ?_⟩
  · rw [checks, hstate, List.drop_length]
  · intro e he
    rw [journal, hstate, List.drop_length, List.nil_append, hreply] at he
    -- Only an invalid traceparent and the request itself are logged.
    rcases List.mem_append.1 he with he | he
    · have he : e ∈ x.call.ignored := he
      rcases x.call.ignored_cases with hnil | ⟨-, err, hone⟩
      · rw [hnil] at he
        cases he
      · rw [hone, List.mem_singleton] at he
        simp [he, Event.OfReadiness, Event.OfCheck]
    · obtain ⟨inner, hinner, rfl⟩ := List.mem_map.1 he
      rw [List.mem_singleton] at hinner
      simp [hinner, Layer.requestEntry, Event.OfReadiness, Event.OfCheck]

/-- **Who is not let in learns nothing.**  Two requests, with any paths, methods and headers, to two services
that ask for the same name and password but differ in all else: in what they check, in how they are
configured, and in what has happened to them before.  If neither request is let in, they are answered
alike; each response shows the trace of its own request; and neither has any effect on the service. -/
theorem strangers_alike (hauth : c.auth = c'.auth)
    (x : Transaction (c.service checkers metered self))
    (y : Transaction (c'.service checkers' metered' self'))
    (hx : c.admits x.call.request = false) (hy : c'.admits y.call.request = false) :
    x.AnsweredAlike y ∧ x.Uneventful ∧ y.Uneventful := by
  obtain ⟨a, ha⟩ : ∃ a, c.auth = some a := by
    cases hnone : c.auth with
    | none => simp [Config.admits, hnone] at hx
    | some a => exact ⟨a, rfl⟩
  have ha' : c'.auth = some a := hauth.symm.trans ha
  have hreply : x.reply = a.refusal x.call :=
    congrArg Prod.fst (Config.call_of_stranger ha hx checkers metered self x.before)
  have hreply' : y.reply = a.refusal y.call :=
    congrArg Prod.fst (Config.call_of_stranger ha' hy checkers' metered' self' y.before)
  have hheaders : (a.refused x.call).headers.withoutTrace =
      (a.refused y.call).headers.withoutTrace := by
    rw [a.withoutTrace_refused, a.withoutTrace_refused]
  refine ⟨?_, uneventful_of_stranger ha x hx, uneventful_of_stranger ha' y hy⟩
  exact ⟨a.refused x.call, a.refused y.call, by rw [hreply]; rfl, by rw [hreply']; rfl, rfl, rfl,
    hheaders, a.traced_refused _, a.traced_refused _⟩

/-- A service that checks nothing and one whose check panics, asked for different things. -/
theorem strangers_alike_panic :
    let auth : Option Config.Auth := some ⟨"ops", "s3cret", some "health"⟩
    let self : Identity := ⟨"here", 0, ⟨0, 0⟩⟩
    let x : Transaction (({ auth := auth } : Config).service [] false self) :=
      ⟨⟨{ path := "/health/live" }, none, fun _ => ⟨0, 0, 1, by decide⟩, none⟩, {}⟩
    let y : Transaction (({ auth := auth } : Config).service [⟨"a", .panic .other⟩] true self) :=
      ⟨⟨{ path := "/health/ready", method := "PUT", headers := [("traceparent", [45])] }, none,
        fun _ => ⟨7, 0, 2, by decide⟩, none⟩, { metrics := { ready := true } }⟩
    x.AnsweredAlike y ∧ x.Uneventful ∧ y.Uneventful := by
  intro auth self x y
  have hx : ({ auth := auth } : Config).admits x.call.request = false := by decide
  have hy : ({ auth := auth } : Config).admits y.call.request = false := by decide
  exact strangers_alike rfl x y hx hy

end Transaction

end HealthService
