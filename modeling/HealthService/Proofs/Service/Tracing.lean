import HealthService.Proofs.Http.Texts
import HealthService.Proofs.Service.Replies
import HealthService.Proofs.Trace.Grammar

/-!
# The trace of a request in its response

A request may bring a traceparent and a tracestate.  `TraceContext.Continues` says what its trace context
has to be, and `Response.Traced` what a response shows of a trace context.

* `parent_eq_some_iff` — a traceparent is taken up just if it is in order.
* `continues_context` — **the context of a request continues the trace that the request brings**, or is
  a new one.
* `carries_trace` — **a response shows this context, unless a check has panicked**: the response in
  place of a panic shows none.
-/

namespace HealthService

/-! ## The trace of a request -/

namespace TraceContext

variable {h : Headers} {p : TraceContext}

/-- The traceparent that the headers bring is in order, and this is what it says. -/
structure Brought (h : Headers) (p : TraceContext) : Prop where
  wellFormed : p.WellFormed
  stateless : p.traceState = none
  first : h.first? "traceparent" = some (Utf8.ofString p.traceparent)

/-- The headers bring a tracestate that can be used. -/
structure BroughtState (h : Headers) (value : Bytes) : Prop where
  first : h.first? "tracestate" = some value
  isText : Headers.IsText value
  ne_nil : value ≠ []

/-- What a trace context has to be for a request with some headers, given what chance decides: the trace
goes on in a new span, or it is a new one, which is sampled. -/
structure Continues (t : TraceContext) (h : Headers) (d : Draw) : Prop where
  wellFormed : t.WellFormed
  spanId : t.spanId = d.spanId
  brought : ∀ p, Brought h p → t.traceId = p.traceId ∧ t.traceFlags = p.traceFlags
  fresh : (∀ p, ¬ Brought h p) → t.traceId = d.traceId ∧ t.traceFlags = "01"
  state : ∀ p value, Brought h p → BroughtState h value →
    t.traceState.map Utf8.ofString = some value
  stateless : ((∀ p, ¬ Brought h p) ∨ ∀ value, ¬ BroughtState h value) → t.traceState = none

/-- A traceparent in order can be read as a text. -/
theorem WellFormed.isText (hp : p.WellFormed) : Headers.IsText (Utf8.ofString p.traceparent) := by
  apply Headers.isText_ofString
  have hfield : ∀ {length cs}, IsField length cs → ∀ c ∈ cs, 0x20 ≤ c.toNat ∧ c.toNat < 0x7F := by
    intro length cs hcs c hc
    have := isHex_range (hcs.hex c hc)
    omega
  have hdash : 0x20 ≤ '-'.toNat ∧ '-'.toNat < 0x7F := by decide
  have hversion : IsField 2 "00".toList := isField_pair rfl rfl rfl
  rw [toList_traceparent, hp.version_eq]
  simp only [List.forall_mem_append, List.forall_mem_cons]
  exact ⟨hfield hversion, hdash, hfield hp.traceId, hdash, hfield hp.spanId, hdash, hfield hp.traceFlags⟩

/-- **A traceparent is taken up just if it is in order.** -/
theorem parent_eq_some_iff : (parent h).1 = some p ↔ Brought h p := by
  have hread : (parent h).1 = some p ↔ ∃ text, h.firstText? "traceparent" = some text ∧
      parse text = .ok p := by
    unfold parent
    rcases h.firstText? "traceparent" with _ | text
    · simp
    · cases hparse : parse text <;> simp [hparse]
  rw [hread]
  constructor
  · rintro ⟨text, htext, hparse⟩
    obtain ⟨hp, hstate, rfl⟩ := parse_eq_ok_iff.1 hparse
    obtain ⟨value, hfirst, hvalue⟩ := Option.bind_eq_some_iff.1 htext
    rw [(Headers.text?_eq_some_iff.1 hvalue).2] at hfirst
    exact ⟨hp, hstate, hfirst⟩
  · rintro ⟨hp, hstate, hfirst⟩
    refine ⟨p.traceparent, ?_, parse_eq_ok_iff.2 ⟨hp, hstate, rfl⟩⟩
    rw [Headers.firstText?, hfirst]
    exact Headers.text?_eq_some_iff.2 ⟨hp.isText, rfl⟩

/-- **A tracestate is taken up just if it can be used.** -/
theorem stateOf_eq_some_iff {s : String} :
    stateOf h = some s ↔ BroughtState h (Utf8.ofString s) := by
  have hempty : Utf8.ofString s = [] ↔ s = "" :=
    ⟨fun hs => Headers.eq_of_ofString (hs.trans rfl), fun hs => by rw [hs]; rfl⟩
  rw [stateOf, Option.filter_eq_some_iff, Headers.firstText?, Option.bind_eq_some_iff]
  simp only [Headers.text?_eq_some_iff]
  constructor
  · rintro ⟨⟨value, hfirst, htext, rfl⟩, hne⟩
    exact ⟨hfirst, htext, hempty.not.2 (by simpa using hne)⟩
  · rintro ⟨hfirst, htext, hne⟩
    exact ⟨⟨_, hfirst, htext, rfl⟩, by simpa using hempty.not.1 hne⟩

theorem stateOf_of_brought {value : Bytes} (hvalue : BroughtState h value) :
    (stateOf h).map Utf8.ofString = some value := by
  have hbytes := hvalue.isText.ofString_eq
  rw [← hbytes] at hvalue ⊢
  rw [stateOf_eq_some_iff.2 hvalue]
  rfl

theorem stateOf_of_none (hnone : ∀ value, ¬ BroughtState h value) : stateOf h = none := by
  rw [Option.eq_none_iff_forall_ne_some]
  intro s hs
  exact hnone _ (stateOf_eq_some_iff.1 hs)

/-- A trace goes on in a new span. -/
theorem ofHeaders_of_brought (hp : Brought h p) (d : Draw) :
    (ofHeaders h d).1 = { p with spanId := d.spanId, traceState := stateOf h } := by
  have hparent := parent_eq_some_iff.2 hp
  unfold ofHeaders
  split <;> simp_all

/-- A new trace begins where none is brought. -/
theorem ofHeaders_of_none (hnone : ∀ p, ¬ Brought h p) (d : Draw) :
    (ofHeaders h d).1 = generate d := by
  have hparent : (parent h).1 = none := by
    rw [Option.eq_none_iff_forall_ne_some]
    intro p hp
    exact hnone p (parent_eq_some_iff.1 hp)
  unfold ofHeaders
  split <;> simp_all

end TraceContext

open TraceContext

/-- **The context of a request continues the trace that the request brings**, or is a new one. -/
theorem continues_context (call : Call) :
    call.context.Continues call.request.headers (call.draws 0) := by
  by_cases hbrought : ∃ p, Brought call.request.headers p
  · obtain ⟨p, hp⟩ := hbrought
    have hcontext : call.context = _ := ofHeaders_of_brought hp (call.draws 0)
    have honly : ∀ p', Brought call.request.headers p' → p' = p := by
      intro p' hp'
      exact Option.some.inj ((parent_eq_some_iff.2 hp').symm.trans (parent_eq_some_iff.2 hp))
    rw [hcontext]
    refine ⟨hp.wellFormed.withSpan _ _, rfl, ?_, fun hnone => absurd hp (hnone p), ?_, ?_⟩
    · intro p' hp'
      rw [honly p' hp']
      exact ⟨rfl, rfl⟩
    · intro p' value _ hvalue
      exact stateOf_of_brought hvalue
    · rintro (hnone | hnone)
      · exact absurd hp (hnone p)
      · exact stateOf_of_none hnone
  · rw [not_exists] at hbrought
    have hcontext : call.context = _ := ofHeaders_of_none hbrought (call.draws 0)
    rw [hcontext]
    refine ⟨wellFormed_generate _, rfl, fun p hp => absurd hp (hbrought p), fun _ => ⟨rfl, rfl⟩,
      fun p _ hp => absurd hp (hbrought p), fun _ => rfl⟩

theorem Call.wellFormed_context (call : Call) : call.context.WellFormed :=
  (continues_context call).wellFormed

/-- A state that has been taken up is a text. -/
theorem Call.isText_of_traceState (call : Call) {s : String} (hs : call.context.traceState = some s) :
    Headers.IsText (Utf8.ofString s) := by
  by_cases hbrought : ∃ p, Brought call.request.headers p
  · obtain ⟨p, hp⟩ := hbrought
    have hstate : stateOf call.request.headers = some s := by
      rw [← hs, Call.context, ofHeaders_of_brought hp]
    exact (stateOf_eq_some_iff.1 hstate).isText
  · rw [Call.context, ofHeaders_of_none (not_exists.1 hbrought)] at hs
    cases hs

/-! ## The response -/

/-- What a response shows of a trace context: one traceparent, and the trace state if there is one. -/
structure Response.Traced (x : Response) (t : TraceContext) : Prop where
  traceparent : x.headers.values "traceparent" = [Utf8.ofString t.traceparent]
  tracestate : x.headers.values "tracestate" = (t.traceState.map Utf8.ofString).toList

namespace Layer

/-- A traceparent in order is written in place of all others. -/
theorem values_writeTrace_traceparent {t : TraceContext} (ht : t.WellFormed) (h : Headers) :
    (writeTrace t h).values "traceparent" = [Utf8.ofString t.traceparent] := by
  rw [writeTrace, Headers.values_insert?_of_ne _ (by decide), Headers.value?_eq_some ht.isText,
    Headers.insert?, Headers.values_insert, if_pos rfl]

/-- A state that is a text is written in place of all others. -/
theorem values_writeTrace_of_state {t : TraceContext} {s : String} (hs : t.traceState = some s)
    (htext : Headers.IsText (Utf8.ofString s)) (h : Headers) :
    (writeTrace t h).values "tracestate" = [Utf8.ofString s] := by
  rw [writeTrace, hs, Option.bind_some, Headers.value?_eq_some htext, Headers.insert?,
    Headers.values_insert, if_pos rfl]

/-- Where there is no state, nothing is written. -/
theorem values_writeTrace_of_stateless {t : TraceContext} (hs : t.traceState = none) (h : Headers) :
    (writeTrace t h).values "tracestate" = h.values "tracestate" := by
  rw [writeTrace, hs, Option.bind_none, Headers.insert?, Headers.values_insert?_of_ne _ (by decide)]

/-- A response that says nothing of traces shows the one that is written into it. -/
theorem traced_writeTrace {x : Response} (hx : x.Untraced) (call : Call) :
    Response.Traced { x with headers := writeTrace call.context x.headers } call.context := by
  refine ⟨values_writeTrace_traceparent call.wellFormed_context _, ?_⟩
  show (writeTrace call.context x.headers).values "tracestate" = _
  cases hs : call.context.traceState with
  | none =>
    rw [values_writeTrace_of_stateless hs, hx.tracestate]
    rfl
  | some s =>
    rw [values_writeTrace_of_state hs (call.isText_of_traceState hs)]
    rfl

/-- A panic leaves no trace in the response. -/
theorem untraced_panicResponse : panicResponse.Untraced := .ofProblem _

end Layer

namespace Config

variable {c : Config} {checkers : List Checker} {metered : Bool} {self : Identity} {call : Call}
  {s t : HealthState} {reply : Reply} {x : Response}

/-- **A response shows the trace of its request, unless a check has panicked**: for any request in any
state, whatever the checkers do.

* The context of the request continues the trace that the request brings, if its traceparent is in
  order, and takes over the tracestate; otherwise it is a new sampled trace.
* If no check that has been run for it has panicked, the response has exactly one traceparent, that of
  this context, and its trace state.
* If one has, the response is the one in place of a panic, which is made outside the layer for traces. -/
theorem carries_trace (hcall : (c.service checkers metered self).call call s = (reply, t))
    (hx : reply.outcome = .answered x) :
    call.context.Continues call.request.headers (call.draws 0) ∧
      if ((t.pool.tasks.drop s.pool.tasks.length).any fun u => u.progress.isPanic) = true then
        x.status = 500 ∧ x.Untraced
      else x.status ≠ 500 ∧ x.Traced call.context := by
  refine ⟨continues_context call, ?_⟩
  cases (service_within hcall).reply with
  | answered took hplain hstatus hcalm hlate =>
    obtain rfl := Outcome.answered.inj hx
    rw [hcalm, if_neg Bool.false_ne_true]
    exact ⟨hstatus, Layer.traced_writeTrace hplain _⟩
  | panicked payload took hpanic =>
    obtain rfl := Outcome.answered.inj hx
    rw [if_pos hpanic]
    exact ⟨rfl, Layer.untraced_panicResponse⟩
  | abandoned took => cases hx

/-- The trace of a caller is shown in the answer to a request for liveness. -/
theorem carries_trace_of_caller :
    let p : TraceContext := generate ⟨2, 3, 5, by decide⟩
    let call : Call := {
      request := {
        path := "/health/live"
        headers := [("traceparent", Utf8.ofString p.traceparent),
          ("tracestate", Utf8.ofString "vendor=1")] }
      draws := fun _ => ⟨0, 0, 1, by decide⟩ }
    let self : Identity := ⟨"here", 0, ⟨0, 0⟩⟩
    ∃ x, ((({} : Config).service [] false self).call call {}).1.outcome = .answered x ∧
      x.headers.values "traceparent" = [Utf8.ofString call.context.traceparent] ∧
      call.context.traceId = p.traceId ∧ call.context.traceFlags = p.traceFlags ∧
      x.headers.values "tracestate" = [Utf8.ofString "vendor=1"] := by
  intro p call self
  have hbrought : Brought call.request.headers p := ⟨wellFormed_generate _, rfl, rfl⟩
  have hstate : BroughtState call.request.headers (Utf8.ofString "vendor=1") := by
    refine ⟨rfl, Headers.isText_iff.2 ?_, ?_⟩ <;> decide
  obtain ⟨hcontinues, hcarries⟩ := carries_trace (call_service {} [] false self call {}) rfl
  rw [if_neg (by decide)] at hcarries
  obtain ⟨htrace, hflags⟩ := hcontinues.brought p hbrought
  refine ⟨_, by rw [call_service]; rfl, hcarries.2.traceparent, htrace, hflags, ?_⟩
  rw [hcarries.2.tracestate, hcontinues.state p _ hbrought hstate]
  rfl

/-- **The trace of a caller is not shown when a check panics.** -/
theorem untraced_after_panic :
    let p : TraceContext := generate ⟨2, 3, 5, by decide⟩
    let call : Call := {
      request := {
        path := "/health/ready"
        headers := [("traceparent", Utf8.ofString p.traceparent)] }
      draws := fun _ => ⟨0, 0, 1, by decide⟩ }
    let checkers : List Checker := [⟨"a", .finish ⟨.ok, none⟩⟩, ⟨"b", .panic (.text "boom")⟩]
    let self : Identity := ⟨"here", 0, ⟨0, 0⟩⟩
    Brought call.request.headers p ∧
      ∃ x, ((({} : Config).service checkers false self).call call {}).1.outcome = .answered x ∧
        x.headers.values "traceparent" = [] := by
  intro p call checkers self
  have hreply := (@service_of_panic self call rfl rfl).1
  refine ⟨⟨wellFormed_generate _, rfl, rfl⟩, Layer.panicResponse, ?_, rfl⟩
  rw [hreply]

end Config
end HealthService
