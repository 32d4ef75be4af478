import HealthService.Proofs.Service.Journal

/-!
# Panics in stacks of layers

Layers may be stacked in any order and as often as one likes, around any service.  A call goes in through
the layers, which may turn it away, and the reply comes out through them again.  A panic travels outwards
until it meets a layer for recovery, and from there on it is a response like any other.

* `call_wrap` — what a layer does, as a way in and a way out.
* `panic?_stack` — **a stack panics if the service does and nothing in the stack recovers from it**.
* `exists_innermost` — a stack with recovery has an innermost layer for recovery.
* `withstands_panics` — **what recovery comes to in every stack that has it**: nothing panics, nothing
  changes where there is no panic, a panic is recovered from once and by the innermost layer for recovery,
  and later requests are answered as if there had been none.
-/

namespace HealthService

/-! ## Panics in replies and in logs -/

/-- An event that tells of a panic which has been recovered from. -/
def Event.IsRecovery (e : Event) : Prop := e.level = .error ∧ e.message = "panic recovered"

instance : DecidablePred Event.IsRecovery := fun _ => inferInstanceAs (Decidable (_ ∧ _))

/-- The events among some entries that tell of panics. -/
def recoveries (entries : List Entry) : List Event :=
  (entries.map Entry.event).filter fun e => e.IsRecovery

@[simp]
theorem recoveries_append (es fs : List Entry) :
    recoveries (es ++ fs) = recoveries es ++ recoveries fs := by
  simp [recoveries]

@[simp]
theorem recoveries_enclose (span : Span) (es : List Entry) :
    recoveries (span.enclose es) = recoveries es := by
  simp [recoveries, Span.enclose, Function.comp_def]

theorem recoveries_ignored (call : Call) : recoveries call.ignored = [] := by
  rcases call.ignored_cases with hnil | ⟨-, err, hone⟩
  · rw [hnil]
    rfl
  · rw [hone]
    rfl

namespace Reply

/-- What a reply panics with, and whether at once, if it is a panic. -/
def panic? (r : Reply) : Option (Payload × Bool) :=
  match r.outcome with
  | .panicked payload atOnce => some (payload, atOnce)
  | _ => none

theorem panic?_eq_some_iff {r : Reply} {payload : Payload} {atOnce : Bool} :
    r.panic? = some (payload, atOnce) ↔ r.outcome = .panicked payload atOnce := by
  unfold panic?
  cases r.outcome <;> simp

theorem panic?_mapResponse (f : Response → Response) (r : Reply) :
    (r.mapResponse f).panic? = r.panic? := by
  unfold panic? mapResponse
  cases h : r.outcome <;> simp [h]

theorem entries_mapResponse (f : Response → Response) (r : Reply) :
    (r.mapResponse f).entries = r.entries := by
  unfold mapResponse
  split <;> rfl

end Reply

/-! ## Layers as a way in and a way out -/

namespace Layer

variable {σ : Type}

/-- The way in: what a layer passes on, or what it says instead. -/
def inward : Layer → Call → Except Reply Call
  | .recovery, c => .ok c
  | .trace, c => .ok (enterTrace c).1
  | .logger, c => .ok c
  | .auth credentials, c =>
    if credentials.admits (c.request.headers.first? "authorization") then .ok c
    else .error { outcome := .answered (unauthorized credentials) }

/-- The way out: what a layer makes of a reply. -/
def outward : Layer → Call → Reply → Reply
  | .recovery, c, r => recover c.request r
  | .trace, c, r => leaveTrace c.context c.ignored r
  | .logger, c, r => logResponse c.request r
  | .auth _, _, r => r

/-- **A service within a layer**, by its way in and its way out. -/
theorem call_wrap (l : Layer) (v : Service σ) (c : Call) (s : σ) :
    (wrap l v).call c s =
      match l.inward c with
      | .ok d => (l.outward c (v.call d s).1, (v.call d s).2)
      | .error r => (r, s) := by
  cases l with
  | recovery => rfl
  | trace => rfl
  | logger => rfl
  | auth credentials =>
    unfold wrap inward
    by_cases hadmits : credentials.admits (c.request.headers.first? "authorization") = true
    · simp only [hadmits, if_true]
      rfl
    · simp only [hadmits, Bool.false_eq_true, if_false]

/-- No layer changes the request. -/
theorem request_of_inward {l : Layer} {c d : Call} (h : l.inward c = .ok d) :
    d.request = c.request := by
  cases l with
  | recovery =>
    cases h
    rfl
  | trace =>
    cases h
    rfl
  | logger =>
    cases h
    rfl
  | auth credentials =>
    simp only [inward] at h
    split at h
    · cases h
      rfl
    · cases h

/-- A layer that does not pass a call on answers it, and says nothing of panics. -/
theorem calm_of_inward {l : Layer} {c : Call} {r : Reply} (h : l.inward c = .error r) :
    r.panic? = none ∧ recoveries r.entries = [] := by
  cases l with
  | recovery => cases h
  | trace => cases h
  | logger => cases h
  | auth credentials =>
    simp only [inward] at h
    split at h
    · cases h
    · cases h
      exact ⟨rfl, rfl⟩

/-! ### The way out -/

theorem recover_of_calm (q : Request) {r : Reply} (h : r.panic? = none) : recover q r = r := by
  unfold recover
  unfold Reply.panic? at h
  split <;> simp_all

/-- **What recovery makes of a panic**: a response, and one more event, at once or late as the panic was. -/
theorem recover_of_panic (q : Request) {r : Reply} {payload : Payload} {atOnce : Bool}
    (h : r.outcome = .panicked payload atOnce) :
    recover q r = { r with
      outcome := .answered panicResponse
      early := r.early ++ if atOnce then [panicEntry q payload] else []
      late := r.late ++ if atOnce then [] else [panicEntry q payload] } := by
  unfold recover
  cases atOnce with
  | false => simp [h]
  | true => simp [h]

/-- Only recovery keeps panics in. -/
theorem panic?_outward (l : Layer) (c : Call) (r : Reply) :
    (l.outward c r).panic? = if l = .recovery then none else r.panic? := by
  cases l with
  | recovery =>
    rw [if_pos rfl]
    rcases hpanic : r.panic? with _ | ⟨payload, atOnce⟩
    · exact (congrArg Reply.panic? (recover_of_calm c.request hpanic)).trans hpanic
    · have hout := recover_of_panic c.request (Reply.panic?_eq_some_iff.1 hpanic)
      exact congrArg Reply.panic? hout
  | trace =>
    rw [if_neg (by simp)]
    exact Reply.panic?_mapResponse _ _
  | logger =>
    rw [if_neg (by simp)]
    unfold outward logResponse Reply.panic?
    cases h : r.outcome <;> simp [h]
  | auth credentials =>
    rw [if_neg (by simp)]
    rfl

/-- Apart from recovery no layer tells of panics, and recovery only where there is one. -/
theorem recoveries_outward {l : Layer} (c : Call) {r : Reply} (h : l ≠ .recovery ∨ r.panic? = none) :
    recoveries (l.outward c r).entries = recoveries r.entries := by
  cases l with
  | recovery =>
    have hcalm : r.panic? = none := h.resolve_left (by simp)
    exact congrArg (recoveries ·.entries) (recover_of_calm c.request hcalm)
  | trace =>
    have hentries : (leaveTrace c.context c.ignored r).entries =
        c.ignored ++ r.early ++ c.context.span.enclose r.late := Reply.entries_mapResponse _ _
    show recoveries (leaveTrace c.context c.ignored r).entries = recoveries r.entries
    rw [hentries, recoveries_append, recoveries_append, recoveries_ignored, recoveries_enclose,
      List.nil_append, Reply.entries, recoveries_append]
  | logger =>
    show recoveries (logResponse c.request r).entries = recoveries r.entries
    unfold logResponse
    split
    · rename_i x _
      have hrequest : recoveries [requestEntry c.request x r.took] = [] := rfl
      simp [Reply.entries, hrequest]
    · rfl
  | auth credentials => rfl

/-! ## Stacks -/

/-- The call that comes to a service through several layers, unless one of them turns it away. -/
def reached : List Layer → Call → Option Call
  | [], c => some c
  | l :: ls, c =>
    match l.inward c with
    | .ok d => reached ls d
    | .error _ => none

/-- What a service within several layers itself says to a call, if it comes to know of it. -/
def replyWithin (layers : List Layer) (v : Service σ) (c : Call) (s : σ) : Option Reply :=
  (reached layers c).map fun d => (v.call d s).1

variable {layers outer inner : List Layer} {v w : Service σ} {c d : Call} {s : σ}

theorem request_of_reached (h : reached layers c = some d) : d.request = c.request := by
  induction layers generalizing c with
  | nil =>
    cases h
    rfl
  | cons l ls ih =>
    rw [reached] at h
    split at h
    · rename_i e hin
      exact (ih h).trans (request_of_inward hin)
    · cases h

theorem reached_append : reached (outer ++ inner) c = (reached outer c).bind (reached inner) := by
  induction outer generalizing c with
  | nil => rfl
  | cons l ls ih =>
    rw [List.cons_append, reached, reached]
    split
    · exact ih
    · rfl

/-- The outermost layer of a stack. -/
theorem call_stack_cons (l : Layer) (ls : List Layer) (v : Service σ) (c : Call) (s : σ) :
    (stack (l :: ls) v).call c s =
      match l.inward c with
      | .ok d => (l.outward c ((stack ls v).call d s).1, ((stack ls v).call d s).2)
      | .error r => (r, s) := call_wrap l (stack ls v) c s

/-- A stack within a stack. -/
theorem stack_append (outer inner : List Layer) (v : Service σ) :
    stack (outer ++ inner) v = stack outer (stack inner v) := List.foldr_append

/-- Only what a service says to the call that comes to it makes a difference to a stack. -/
theorem call_stack_congr (h : ∀ d, reached layers c = some d → v.call d s = w.call d s) :
    (stack layers v).call c s = (stack layers w).call c s := by
  induction layers generalizing c with
  | nil => exact h c rfl
  | cons l ls ih =>
    rw [reached] at h
    rw [call_stack_cons, call_stack_cons]
    cases hin : l.inward c with
    | ok e =>
      rw [hin] at h
      simp only [ih h]
    | error r => rfl

/-- The layers have no state of their own. -/
theorem state_stack :
    ((stack layers v).call c s).2 = ((reached layers c).map fun d => (v.call d s).2).getD s := by
  induction layers generalizing c with
  | nil => rfl
  | cons l ls ih =>
    rw [call_stack_cons, reached]
    cases l.inward c with
    | ok e => exact ih
    | error r => rfl

/-! ### Panics -/

/-- Whether a service within several layers panics at a call, and how. -/
def panicWithin (layers : List Layer) (v : Service σ) (c : Call) (s : σ) : Option (Payload × Bool) :=
  (replyWithin layers v c s).bind Reply.panic?

theorem panicWithin_cons_of_ok {l : Layer} (h : l.inward c = .ok d) :
    panicWithin (l :: layers) v c s = panicWithin layers v d s := by
  simp [panicWithin, replyWithin, reached, h]

theorem panicWithin_cons_of_error {l : Layer} {r : Reply} (h : l.inward c = .error r) :
    panicWithin (l :: layers) v c s = none := by
  simp [panicWithin, replyWithin, reached, h]

/-- **A stack panics if the service does**, unless it has recovery somewhere. -/
theorem panic?_stack : ((stack layers v).call c s).1.panic? =
    if .recovery ∈ layers then none else panicWithin layers v c s := by
  induction layers generalizing c with
  | nil => rfl
  | cons l ls ih =>
    rw [call_stack_cons]
    cases hin : l.inward c with
    | ok e =>
      show (l.outward c ((stack ls v).call e s).1).panic? = _
      rw [panic?_outward, ih, panicWithin_cons_of_ok hin]
      by_cases hl : l = .recovery
      · simp [hl]
      · simp [hl, Ne.symm hl]
    | error r =>
      show r.panic? = _
      rw [(calm_of_inward hin).1, panicWithin_cons_of_error hin, ite_self]

/-- **Where there is no panic, recovery makes no difference.** -/
theorem stack_filter (h : panicWithin layers v c s = none) :
    (stack layers v).call c s = (stack (layers.filter fun l => l ≠ .recovery) v).call c s := by
  induction layers generalizing c with
  | nil => rfl
  | cons l ls ih =>
    by_cases hl : l = .recovery
    · -- What comes out of the layers within is no panic either, so there is nothing to recover from.
      subst hl
      have hcalm : panicWithin ls v c s = none := h
      have hreply : ((stack ls v).call c s).1.panic? = none := by rw [panic?_stack, hcalm, ite_self]
      rw [List.filter_cons_of_neg (by simp), ← ih hcalm]
      exact Prod.ext (recover_of_calm c.request hreply) rfl
    · rw [List.filter_cons_of_pos (by simpa using hl), call_stack_cons, call_stack_cons]
      cases hin : l.inward c with
      | ok e =>
        rw [panicWithin_cons_of_ok hin] at h
        simp only [ih h]
      | error r => rfl

/-- **The layers tell of no panic themselves**, unless there is one and something recovers from it. -/
theorem recoveries_stack {own : Reply} (hown : replyWithin layers v c s = some own)
    (h : .recovery ∉ layers ∨ own.panic? = none) :
    recoveries ((stack layers v).call c s).1.entries = recoveries own.entries := by
  induction layers generalizing c with
  | nil =>
    cases hown
    rfl
  | cons l ls ih =>
    rw [call_stack_cons]
    cases hin : l.inward c with
    | ok e =>
      have hown : replyWithin ls v e s = some own := by
        rw [← hown]
        simp [replyWithin, reached, hin]
      have hcalm : .recovery ∉ ls ∨ own.panic? = none :=
        h.imp_left fun hnot hmem => hnot (List.mem_cons_of_mem _ hmem)
      show recoveries (l.outward c ((stack ls v).call e s).1).entries = _
      rw [← ih hown hcalm]
      refine recoveries_outward c ?_
      rcases h with hnot | hpanic
      · exact Or.inl fun hl => hnot (by simp [hl])
      · refine Or.inr ?_
        rw [panic?_stack, panicWithin, hown, Option.bind_some, hpanic, ite_self]
    | error r => simp [replyWithin, reached, hin] at hown

/-- A stack with recovery has an innermost layer for it. -/
theorem exists_innermost (h : .recovery ∈ layers) :
    ∃ outer inner, layers = outer ++ .recovery :: inner ∧ .recovery ∉ inner := by
  obtain ⟨inner, outer, hsplit, hinner⟩ := List.eq_append_cons_of_mem (List.mem_reverse.2 h)
  refine ⟨outer.reverse, inner.reverse, ?_, by simpa using hinner⟩
  rw [← List.reverse_reverse layers, hsplit]
  simp

end Layer

/-! ## Requests one after another -/

namespace Service

variable {σ : Type}

/-- A service that says one and the same to every call. -/
def constant (r : Reply) (t : σ) : Service σ where
  call _ _ := (r, t)

/-- The state after some calls, one after another. -/
def after (v : Service σ) (calls : List Call) (s : σ) : σ :=
  calls.foldl (fun s c => (v.call c s).2) s

theorem after_append (v : Service σ) (xs ys : List Call) (s : σ) :
    v.after (xs ++ ys) s = v.after ys (v.after xs s) := List.foldl_append

end Service

namespace Layer

variable {σ : Type} {layers outer inner : List Layer} {v w : Service σ} {c d : Call} {s : σ}

/-- What has been replied makes no difference to the state in which later requests come. -/
theorem after_stack (hstate : ∀ d t, (v.call d t).2 = (w.call d t).2) (calls : List Call) :
    (stack layers v).after calls s = (stack layers w).after calls s := by
  induction calls generalizing s with
  | nil => rfl
  | cons c calls ih =>
    have hstep : ((stack layers v).call c s).2 = ((stack layers w).call c s).2 := by
      rw [state_stack, state_stack]
      simp only [hstate]
    show (stack layers v).after calls ((stack layers v).call c s).2 =
      (stack layers w).after calls ((stack layers w).call c s).2
    rw [hstep]
    exact ih

/-- **A reply depends on nothing that has been replied before.** -/
theorem call_after_stack (hstate : ∀ d t, (v.call d t).2 = (w.call d t).2) (calls : List Call)
    (hreply : replyWithin layers v c ((stack layers v).after calls s) =
      replyWithin layers w c ((stack layers w).after calls s)) :
    (stack layers v).call c ((stack layers v).after calls s) =
      (stack layers w).call c ((stack layers w).after calls s) := by
  rw [← after_stack hstate calls] at hreply ⊢
  refine call_stack_congr fun d hd => ?_
  have hsaid : (v.call d ((stack layers v).after calls s)).1 =
      (w.call d ((stack layers v).after calls s)).1 := by
    simpa [replyWithin, hd] using hreply
  exact Prod.ext hsaid (hstate d _)

/-- A panic that leaves the service as it was leaves the stack as it was. -/
theorem after_skip (hkeeps : ∀ d t, (v.call d t).1.panic? ≠ none → (v.call d t).2 = t)
    (xs ys : List Call) (hpanic : panicWithin layers v c ((stack layers v).after xs s) ≠ none) :
    (stack layers v).after (xs ++ c :: ys) s = (stack layers v).after (xs ++ ys) s := by
  have hstep : ((stack layers v).call c ((stack layers v).after xs s)).2 =
      (stack layers v).after xs s := by
    rw [state_stack]
    cases hd : reached layers c with
    | none => rfl
    | some d =>
      refine hkeeps d _ ?_
      simpa [panicWithin, replyWithin, hd] using hpanic
  rw [Service.after_append, Service.after_append]
  exact congrArg ((stack layers v).after ys) hstep

/-! ## Recovery -/

/-- **How a panic of a service is recovered from**, if there is recovery between some outer and some inner
layers around it. -/
structure Recovers (outer inner : List Layer) (v : Service σ) (c : Call) (s : σ) (own : Reply)
    (payload : Payload) (atOnce : Bool) : Prop where
  innermost : .recovery ∉ inner
  /-- The inner layers panic as the service does and tell of no panic.  The outer layers are around a
  service that answers: what was logged before the panic is kept, and the event that tells of the panic,
  with the method and path of the request, comes after it. -/
  seen : ∃ d r t, reached outer c = some d ∧ (stack inner v).call d s = (r, t) ∧
    r.outcome = .panicked payload atOnce ∧ recoveries r.entries = recoveries own.entries ∧
    (stack (outer ++ .recovery :: inner) v).call c s =
      (stack outer (.constant { r with
        outcome := .answered panicResponse
        early := r.early ++ if atOnce then [panicEntry c.request payload] else []
        late := r.late ++ if atOnce then [] else [panicEntry c.request payload] } t)).call c s
  problem : panicResponse.status = 500 ∧ panicResponse.IsProblem
  /-- One event tells of the panic, besides those that the service itself logs. -/
  once : (recoveries ((stack (outer ++ .recovery :: inner) v).call c s).1.entries).Perm
    (.panicRecovered payload.message c.request.method c.request.path :: recoveries own.entries)

/-- A reply that has been recovered from tells of one more panic. -/
theorem recoveries_recover (q : Request) {r : Reply} {payload : Payload} {atOnce : Bool}
    (h : r.outcome = .panicked payload atOnce) :
    (recoveries (recover q r).entries).Perm
      (.panicRecovered payload.message q.method q.path :: recoveries r.entries) := by
  have hentry : recoveries [panicEntry q payload] =
      [.panicRecovered payload.message q.method q.path] := rfl
  rw [recover_of_panic q h]
  cases atOnce with
  | false =>
    simp only [Reply.entries, Bool.false_eq_true, if_false, recoveries_append, hentry,
      List.append_nil, ← List.append_assoc]
    exact List.perm_append_singleton ..
  | true =>
    simp only [Reply.entries, if_true, recoveries_append, hentry, List.append_nil]
    rw [List.append_assoc]
    exact List.perm_middle

/-- **A panic is recovered from once, by the innermost layer for recovery.** -/
theorem recovers_of_panic (hinner : .recovery ∉ inner) {own : Reply} {payload : Payload}
    {atOnce : Bool} (hown : replyWithin (outer ++ .recovery :: inner) v c s = some own)
    (hpanic : own.outcome = .panicked payload atOnce) :
    Recovers outer inner v c s own payload atOnce := by
  obtain ⟨d, hd, hown⟩ : ∃ d, reached outer c = some d ∧ replyWithin inner v d s = some own := by
    rw [replyWithin, reached_append, Option.map_bind, Option.bind_eq_some_iff] at hown
    exact hown
  have hrequest : d.request = c.request := request_of_reached hd
  -- The panic comes out of the inner layers as it is.
  obtain ⟨r, t, hcall⟩ : ∃ r t, (stack inner v).call d s = (r, t) := ⟨_, _, rfl⟩
  have hr : r.outcome = .panicked payload atOnce := by
    have hstack : ((stack inner v).call d s).1.panic? = _ := panic?_stack
    rw [if_neg hinner, panicWithin, hown, Option.bind_some, hcall] at hstack
    exact Reply.panic?_eq_some_iff.1 (hstack.trans (Reply.panic?_eq_some_iff.2 hpanic))
  have hquiet : recoveries r.entries = recoveries own.entries := by
    have hstack := recoveries_stack hown (Or.inl hinner)
    rwa [hcall] at hstack
  -- From here on it is an answer, and so the outer layers tell of no other panic.
  have hseen : (stack (outer ++ .recovery :: inner) v).call c s =
      (stack outer (.constant (recover c.request r) t)).call c s := by
    rw [stack_append]
    refine call_stack_congr fun d' hd' => ?_
    obtain rfl : d = d' := by simpa [hd] using hd'
    show (recover d.request ((stack inner v).call d s).1, ((stack inner v).call d s).2) = _
    rw [hcall, hrequest]
    rfl
  have honce : recoveries ((stack (outer ++ .recovery :: inner) v).call c s).1.entries =
      recoveries (recover c.request r).entries := by
    rw [hseen]
    have hown' : replyWithin outer (.constant (recover c.request r) t) c s =
        some (recover c.request r) := by simp [replyWithin, hd, Service.constant]
    exact recoveries_stack hown' (Or.inr (panic?_outward .recovery c r))
  exact {
    innermost := hinner
    seen := by
      refine ⟨d, r, t, hd, hcall, hr, hquiet, ?_⟩
      rw [hseen, recover_of_panic c.request hr]
    problem := ⟨rfl, isProblem_panicResponse⟩
    once := by
      rw [honce, ← hquiet]
      exact recoveries_recover c.request hr }

/-- What becomes of a service that may panic within a stack of layers. -/
structure Withstands (layers : List Layer) (v : Service σ) : Prop where
  /-- Nothing panics. -/
  calm : ∀ c s, ((stack layers v).call c s).1.panic? = none
  /-- If the service does not panic, recovery makes no difference. -/
  untouched : ∀ c s, panicWithin layers v c s = none →
    (stack layers v).call c s = (stack (layers.filter fun l => l ≠ .recovery) v).call c s
  /-- If it does, then the innermost layer for recovery recovers from that. -/
  recovered : ∀ c s own payload atOnce, replyWithin layers v c s = some own →
    own.outcome = .panicked payload atOnce → ∃ outer inner, layers = outer ++ .recovery :: inner ∧
      Recovers outer inner v c s own payload atOnce
  /-- Later requests are answered as if the service had said something else before, instead of panicking
  for one. -/
  forgotten : ∀ w, (∀ d t, (v.call d t).2 = (w.call d t).2) → ∀ calls c s,
    replyWithin layers v c ((stack layers v).after calls s) =
        replyWithin layers w c ((stack layers w).after calls s) →
      (stack layers v).call c ((stack layers v).after calls s) =
        (stack layers w).call c ((stack layers w).after calls s)
  /-- If a service keeps its state when it panics, then later requests are answered as if the one at which
  it has panicked had never come. -/
  skipped : (∀ d t, (v.call d t).1.panic? ≠ none → (v.call d t).2 = t) → ∀ xs c ys s,
    panicWithin layers v c ((stack layers v).after xs s) ≠ none →
      (stack layers v).after (xs ++ c :: ys) s = (stack layers v).after (xs ++ ys) s

/-- **A stack with recovery withstands all panics**, wherever in the stack it is and however often, and
whatever the service within does. -/
theorem withstands_panics (hlayers : .recovery ∈ layers) (v : Service σ) : Withstands layers v where
  calm c s := by
    rw [panic?_stack, if_pos hlayers]
  untouched c s hcalm := stack_filter hcalm
  recovered c s own payload atOnce hown hpanic := by
    obtain ⟨outer, inner, rfl, hinner⟩ := exists_innermost hlayers
    exact ⟨outer, inner, rfl, recovers_of_panic hinner hown hpanic⟩
  forgotten w hstate calls c s hreply := call_after_stack hstate calls hreply
  skipped hkeeps xs c ys s hpanic := after_skip hkeeps xs ys hpanic

/-- A service that panics at once within two layers for recovery, of which the inner one tells. -/
theorem withstands_panics_twice :
    let v : Service Nat := ⟨fun c n =>
      if c.request.path = "/boom" then ({ outcome := .panicked .other true }, n)
      else ({ outcome := .failed "gone" }, n + 1)⟩
    let layers : List Layer := [.logger, .recovery, .trace, .recovery, .logger]
    let call : Call := ⟨{ path := "/boom" }, none, fun _ => ⟨0, 0, 1, by decide⟩, none⟩
    Withstands layers v ∧ recoveries ((stack layers v).call call 0).1.entries =
      [.panicRecovered "non-string panic payload" "GET" "/boom"] := by
  intro v layers call
  have h : Withstands layers v := withstands_panics (by decide) v
  obtain ⟨outer, inner, hsplit, hrecovers⟩ := h.recovered call 0 _ .other true rfl rfl
  have honce := hrecovers.once
  rw [← hsplit] at honce
  exact ⟨h, List.perm_singleton.1 honce⟩

end Layer
end HealthService
