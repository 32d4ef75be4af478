import HealthService.Proofs.Service.TraceLayer

/-!
# The states that a trace brings along

Whoever has a part in a trace may add to its state, and a request may bring this state in several lines.
They belong together, but the layer for traces looks at the first line only: it hands that one on, and the
others are lost.

* `InOrder` — texts that stand in another one, one after the other.
* `inOrder_head_iff` — the first of several texts has room for all of them just if the others are empty.
* `Layer.hands_on_first_state` — **what the service and the response get to know of the states**, for any
  service and any request with a traceparent in order: all of them just if the lines after the first are
  empty.
* `Layer.loses_states` — a state is lost after an empty line, and one that comes in a second line.
-/

namespace HealthService

open TraceContext

/-! ## Texts within a text -/

/-- Some texts stand in another one, one after the other and next to each other at most. -/
inductive InOrder {α : Type} : List (List α) → List α → Prop
  | nil (rest : List α) : InOrder [] rest
  | cons (gap text : List α) {texts : List (List α)} {rest : List α} (h : InOrder texts rest) :
      InOrder (text :: texts) (gap ++ text ++ rest)

section

variable {α : Type} {texts : List (List α)} {text whole : List α}

/-- Texts that stand next to each other need the room of all of them. -/
theorem InOrder.length_le (h : InOrder texts whole) : texts.flatten.length ≤ whole.length := by
  induction h with
  | nil rest => exact Nat.zero_le _
  | cons gap text h ih =>
    rw [List.flatten_cons]
    simp only [List.length_append]
    omega

theorem InOrder.singleton (text : List α) : InOrder [text] text := by
  have h := InOrder.cons [] text (.nil [])
  rwa [List.nil_append, List.append_nil] at h

/-- More text at the end does no harm. -/
theorem InOrder.append (h : InOrder texts whole) (more : List α) : InOrder texts (whole ++ more) := by
  induction h with
  | nil rest => exact InOrder.nil (rest ++ more)
  | cons gap text h ih =>
    rw [List.append_assoc]
    exact InOrder.cons gap text ih

theorem flatten_filter_ne_nil [DecidableEq α] (texts : List (List α)) :
    (texts.filter (· ≠ [])).flatten = texts.flatten := by
  induction texts with
  | nil => rfl
  | cons text texts ih =>
    by_cases htext : text = []
    · rw [List.filter_cons_of_neg (by simpa using htext), ih, List.flatten_cons, htext, List.nil_append]
    · rw [List.filter_cons_of_pos (by simpa using htext), List.flatten_cons, List.flatten_cons, ih]

/-- **The first of several texts has room for all of them just if the others are empty.** -/
theorem inOrder_head_iff [DecidableEq α] (texts : List (List α)) :
    InOrder (texts.filter (· ≠ [])) (texts.head?.getD []) ↔ ∀ text ∈ texts.tail, text = [] := by
  cases texts with
  | nil => exact ⟨fun _ => List.forall_mem_nil _, fun _ => InOrder.nil []⟩
  | cons first texts =>
    rw [List.head?_cons, Option.getD_some, List.tail_cons]
    constructor
    · intro h
      have hlength := h.length_le
      rw [flatten_filter_ne_nil, List.flatten_cons, List.length_append] at hlength
      have hrest : texts.flatten = [] := List.eq_nil_of_length_eq_zero (by omega)
      exact List.flatten_eq_nil_iff.1 hrest
    · intro h
      have hrest : texts.filter (· ≠ []) = [] := by
        rw [List.filter_eq_nil_iff]
        simpa using h
      by_cases hfirst : first = []
      · rw [List.filter_cons_of_neg (by simpa using hfirst), hrest]
        exact InOrder.nil first
      · rw [List.filter_cons_of_pos (by simpa using hfirst), hrest]
        exact InOrder.singleton first

end

/-! ## States in headers -/

namespace Headers

/-- The states that headers bring: all values of the name that are not empty. -/
def states (h : Headers) : List Bytes := (h.values "tracestate").filter (· ≠ [])

/-- What the lines of a name say together: they are one list, with commas between its parts. -/
def combined (h : Headers) (name : String) : Bytes := [0x2C].intercalate (h.values name)

end Headers

namespace TraceContext

/-- The state of a context as bytes, and none if it has no state. -/
def stateBytes (t : TraceContext) : Bytes := (t.traceState.map Utf8.ofString).getD []

variable {h : Headers}

/-- The state is the text of the first line, unless that is empty. -/
theorem stateOf_eq_head (htext : ∀ value ∈ h.values "tracestate", Headers.IsText value) :
    (stateOf h).map Utf8.ofString = (h.values "tracestate").head?.filter (· ≠ []) := by
  cases hfirst : (h.values "tracestate").head? with
  | none =>
    refine Option.map_eq_none_iff.2 (stateOf_of_none fun value hvalue => ?_)
    rw [← Headers.first?_eq_head?, hvalue.first] at hfirst
    cases hfirst
  | some value =>
    have hvalue : Headers.IsText value := htext value (List.mem_of_mem_head? hfirst)
    rw [← Headers.first?_eq_head?] at hfirst
    by_cases hempty : value = []
    · rw [Option.filter_some_neg (by simpa using hempty)]
      refine Option.map_eq_none_iff.2 (stateOf_of_none fun value' hvalue' => hvalue'.ne_nil ?_)
      rw [← hempty]
      exact Option.some.inj (hvalue'.first.symm.trans hfirst)
    · rw [Option.filter_some_pos (by simpa using hempty)]
      exact stateOf_of_brought ⟨hfirst, hvalue, hempty⟩

/-- The state of a context is the first line. -/
theorem stateBytes_of_said {call : Call} {p : TraceContext}
    (hsaid : said call.request.headers = some (.ok p))
    (htext : ∀ value ∈ call.request.headers.values "tracestate", Headers.IsText value) :
    call.context.traceState.map Utf8.ofString =
        (call.request.headers.values "tracestate").head?.filter (· ≠ []) ∧
      call.context.stateBytes = (call.request.headers.values "tracestate").head?.getD [] := by
  have hstate : call.context.traceState.map Utf8.ofString =
      (call.request.headers.values "tracestate").head?.filter (· ≠ []) := by
    rw [Call.context, ofHeaders_of_said hsaid]
    exact stateOf_eq_head htext
  refine ⟨hstate, ?_⟩
  rw [stateBytes, hstate]
  cases (call.request.headers.values "tracestate").head? with
  | none => rfl
  | some value =>
    by_cases hempty : value = []
    · rw [Option.filter_some_neg (by simpa using hempty), hempty]
      rfl
    · rw [Option.filter_some_pos (by simpa using hempty)]

end TraceContext

/-- All that headers say of a trace's state stands in the first line. -/
def Headers.SaysStateFirst (h : Headers) : Prop := ∀ value ∈ (h.values "tracestate").tail, value = []

instance (h : Headers) : Decidable h.SaysStateFirst :=
  inferInstanceAs (Decidable (∀ value ∈ (h.values "tracestate").tail, value = []))

namespace Layer

variable {σ : Type}

/-- A marked response shows the state of the context, or the one that it has shown before. -/
theorem values_of_marks {x y : Response} {t : TraceContext} (h : y.Marks x t) :
    y.headers.values "tracestate" =
      match t.traceState with
      | some s => [Utf8.ofString s]
      | none => x.headers.values "tracestate" := by
  cases hs : t.traceState with
  | some s => exact h.state s hs
  | none => exact h.stateless hs

/-- What a response shows together is the state of the context, where there is nothing else to show. -/
theorem inOrder_of_marks {x y : Response} {t : TraceContext} (h : y.Marks x t) {states : List Bytes}
    (hstates : InOrder states t.stateBytes) : InOrder states (y.headers.combined "tracestate") := by
  rw [Headers.combined, values_of_marks h]
  rw [stateBytes] at hstates
  cases hs : t.traceState with
  | some s =>
    rw [hs] at hstates
    simpa using hstates
  | none =>
    rw [hs] at hstates
    exact hstates.append _

theorem combined_of_marks {x y : Response} {t : TraceContext} (h : y.Marks x t)
    (hx : x.headers.values "tracestate" = []) : y.headers.combined "tracestate" = t.stateBytes := by
  rw [Headers.combined, values_of_marks h, stateBytes]
  cases t.traceState with
  | some s => simp
  | none =>
    rw [hx]
    rfl

/-- What is marked in place of an answer is an answer. -/
theorem answered_of_marks {t : TraceContext} {x : Response} {o : Outcome}
    (h : Outcome.Marks t (.answered x) o) : ∃ y, o = .answered y ∧ y.Marks x t := by
  cases h with
  | other hother => exact absurd rfl (hother x)
  | @answered _ y hy => exact ⟨y, rfl, hy⟩

/-- **What becomes of the states that a trace brings along**, for any service and any request whose
traceparent is in order and whose states are texts.

* The service is handed the first line if that is not empty, and no state otherwise.
* The response shows just this line, or what it has shown before if there is none.
* So all states come through to both of them, in their order, if the lines after the first are empty.
  Otherwise some state is lost to the service, and to a response that shows none of its own. -/
theorem hands_on_first_state (s : Service σ) (call : Call) (state : σ) {p : TraceContext}
    (hsaid : said call.request.headers = some (.ok p))
    (htext : ∀ value ∈ call.request.headers.values "tracestate", Headers.IsText value) :
    ∃ (t : TraceContext) (r out : Reply) (state' : σ),
      s.call { call with trace := some t, draws := fun n => call.draws (n + 1) } state = (r, state') ∧
      (wrap .trace s).call call state = (out, state') ∧
      t.traceState.map Utf8.ofString =
        (call.request.headers.values "tracestate").head?.filter (· ≠ []) ∧
      (InOrder call.request.headers.states t.stateBytes ↔ call.request.headers.SaysStateFirst) ∧
      ∀ x, r.outcome = .answered x → ∃ y, out.outcome = .answered y ∧
        y.headers.values "tracestate" =
          (match t.traceState with
          | some s => [Utf8.ofString s]
          | none => x.headers.values "tracestate") ∧
        (call.request.headers.SaysStateFirst →
          InOrder call.request.headers.states (y.headers.combined "tracestate")) ∧
        (x.headers.values "tracestate" = [] →
          InOrder call.request.headers.states (y.headers.combined "tracestate") →
          call.request.headers.SaysStateFirst) := by
  obtain ⟨hstate, hbytes⟩ := stateBytes_of_said hsaid htext
  have hfirst : InOrder call.request.headers.states call.context.stateBytes ↔
      call.request.headers.SaysStateFirst := by
    rw [hbytes]
    exact inOrder_head_iff _
  refine ⟨call.context, _, leaveTrace call.context call.ignored _, _, rfl, rfl, hstate, hfirst, ?_⟩
  intro x hx
  obtain ⟨y, hout, hy⟩ := answered_of_marks (hx ▸ marks_leaveTrace call _)
  refine ⟨y, hout, values_of_marks hy, fun h => inOrder_of_marks hy (hfirst.2 h), fun hempty h => ?_⟩
  rw [combined_of_marks hy hempty] at h
  exact hfirst.1 h

/-! ### Two calls whose states are read -/

/-- A call within a trace whose state comes in some lines. -/
def callWithStates (lines : List String) : Call where
  request := {
    headers :=
      ("traceparent", Utf8.ofString (generate (.ofWords 2 3 5)).traceparent) ::
        lines.map fun line => ("tracestate", Utf8.ofString line) }
  draws _ := .ofWords 0 0 1

/-- Answers everything and writes down the states that it is handed. -/
def stateRecorder : Service (List (Option String)) where
  call call handed := ({ outcome := .answered {} }, handed ++ [call.trace.bind (·.traceState)])

/-- The traceparent of such a call is in order. -/
theorem said_callWithStates (lines : List String) :
    said (callWithStates lines).request.headers = some (.ok (generate (.ofWords 2 3 5))) := by
  refine said_of_values (wellFormed_generate _) ?_
  have hlines : (lines.map fun line => ("tracestate", Utf8.ofString line)).filter
      (fun l => l.1 = "traceparent") = [] := by
    rw [List.filter_eq_nil_iff, List.forall_mem_map]
    simp
  rw [callWithStates, Headers.values, List.filter_cons_of_pos (by decide), hlines]
  rfl

/-- An empty line after the state does no harm. -/
theorem keeps_state_of_first_line :
    ∃ x, ((wrap .trace stateRecorder).call (callWithStates ["vendor=1", ""]) []).1.outcome = .answered x ∧
      InOrder [Utf8.ofString "vendor=1"] (x.headers.combined "tracestate") := by
  have htext : ∀ value ∈ (callWithStates ["vendor=1", ""]).request.headers.values "tracestate",
      Headers.IsText value := by
    simp only [Headers.isText_iff]
    decide
  obtain ⟨t, r, out, state, hcall, hout, -, -, hanswered⟩ :=
    hands_on_first_state stateRecorder _ [] (said_callWithStates ["vendor=1", ""]) htext
  obtain ⟨rfl, -⟩ := Prod.mk.inj hcall
  obtain ⟨x, hx, -, hkept, -⟩ := hanswered {} rfl
  exact ⟨x, by rw [hout, hx], hkept (by decide)⟩

/-- **A state is lost after an empty line, and one that comes in a second line.**  Both calls have a
traceparent in order and texts for states.  The service is handed no state of the first call and one of
the two states of the second call, and neither response shows more. -/
theorem loses_states :
    let afterEmptyLine := callWithStates ["", "vendor=abc"]
    let inTwoLines := callWithStates ["a=1", "b=2"]
    (∀ call ∈ [afterEmptyLine, inTwoLines],
      said call.request.headers = some (.ok (generate (.ofWords 2 3 5))) ∧
      ∀ value ∈ call.request.headers.values "tracestate", Headers.IsText value) ∧
    (afterEmptyLine.request.headers.states = [Utf8.ofString "vendor=abc"] ∧
      ((wrap .trace stateRecorder).call afterEmptyLine []).2 = [none] ∧
      ∃ x, ((wrap .trace stateRecorder).call afterEmptyLine []).1.outcome = .answered x ∧
        x.headers.values "tracestate" = [] ∧
        ¬ InOrder afterEmptyLine.request.headers.states (x.headers.combined "tracestate")) ∧
    (inTwoLines.request.headers.states = [Utf8.ofString "a=1", Utf8.ofString "b=2"] ∧
      ((wrap .trace stateRecorder).call inTwoLines []).2 = [some "a=1"] ∧
      ¬ InOrder inTwoLines.request.headers.states (Utf8.ofString "a=1") ∧
      ∃ x, ((wrap .trace stateRecorder).call inTwoLines []).1.outcome = .answered x ∧
        x.headers.values "tracestate" = [Utf8.ofString "a=1"] ∧
        ¬ InOrder inTwoLines.request.headers.states (x.headers.combined "tracestate")) := by
  intro afterEmptyLine inTwoLines
  have htoo_long : ∀ {states : List Bytes} {whole : Bytes},
      whole.length < states.flatten.length → ¬ InOrder states whole :=
    fun hlength h => absurd h.length_le (by omega)
  refine ⟨?_, ⟨by decide, by decide, _, rfl, by decide, ?_⟩,
    ⟨by decide, by decide, ?_, _, rfl, by decide, ?_⟩⟩
  · simp only [List.forall_mem_cons, Headers.isText_iff]
    exact ⟨⟨said_callWithStates _, by decide⟩, ⟨said_callWithStates _, by decide⟩,
      List.forall_mem_nil _⟩
  · exact htoo_long (by decide)
  · exact htoo_long (by decide)
  · exact htoo_long (by decide)

end Layer
end HealthService
