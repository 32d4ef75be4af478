import HealthService.Proofs.Check.Steps
import HealthService.Proofs.Contexts.Governance

/-!
# When contexts end

A sequence of operations says by itself how long each context may last: every step that sets a budget
bounds the context that it makes and everything derived from that one (`ContextOp.Bounds`).  The clock
of such a sequence is the sum of its waits (`ContextOp.clock`).

* `Timed` — the invariant of every sequence of operations: the deadline of a handle is the earliest of
  its bounds (`timed_of_run?`).
* `isDone_of_governs` — **what is derived from a context that has ended has ended**.
* `severity_le_of_run?` — what a context says of itself only ever gets worse.
* `Contexts.Resolves` — what somebody who waits for the end of a context may be told at some time; if
  the context is cancelled and its timer has gone off, it may be either.
* `ends_by_derivation` — all views of the end of a context together, for every sequence of operations.
-/

namespace HealthService

/-! ## The earliest of many times -/

/-- A time is the earliest of those with a property; without one there is none with it. -/
def IsEarliest (P : Time → Prop) : Option Time → Prop
  | some t => IsLeast {u | P u} t
  | none => ∀ t, ¬ P t

namespace IsEarliest

variable {P Q : Time → Prop} {a b : Option Time}

theorem congr (h : IsEarliest P a) (hPQ : ∀ t, Q t ↔ P t) : IsEarliest Q a := by
  rwa [funext fun t => propext (hPQ t)]

theorem earlier (ha : IsEarliest P a) (hb : IsEarliest Q b) :
    IsEarliest (fun t => P t ∨ Q t) (Contexts.earlier a b) := by
  cases a with
  | none => exact hb.congr fun t => or_iff_right (ha t)
  | some a =>
    cases b with
    | none => exact ha.congr fun t => or_iff_left (hb t)
    | some b => exact ha.union hb

/-- With more times to choose from, the earliest one is no later. -/
theorem anti (ha : IsEarliest P a) (hb : IsEarliest Q b) (hPQ : ∀ t, P t → Q t) :
    ∀ d ∈ a, ∃ e ∈ b, e ≤ d := by
  rintro d rfl
  have hd : Q d := hPQ d ha.1
  cases b with
  | none => exact absurd hd (hb d)
  | some e => exact ⟨e, rfl, hb.2 hd⟩

end IsEarliest

theorem isEarliest_after? (now : Time) (d : Duration) :
    IsEarliest (fun t => t = now + d ∧ t < Time.horizon) (now.after? d) := by
  unfold Time.after?
  split
  · rename_i h
    exact ⟨⟨rfl, h⟩, fun t ht => ht.1.ge⟩
  · rename_i h
    rintro t ⟨rfl, ht⟩
    exact h ht

/-! ## What the operations tell -/

namespace ContextOp

/-- The time that passes in an operation. -/
def waits : ContextOp → Duration
  | .wait time => time
  | _ => 0

/-- The clock after some operations. -/
def clock (ops : List ContextOp) : Time := (ops.map waits).sum

/-- A step with a budget makes handle `f`, and the budget runs out at time `t`, which can be
represented. -/
def Limits (ops : List ContextOp) (f : Nat) (t : Time) : Prop :=
  ∃ before i budget after, ops = before ++ .withTimeout i budget :: after ∧
    f = (origins before).length ∧ t = clock before + budget ∧ t < Time.horizon

/-- Handle `j` may last no longer than until `t`: a budget that runs out then was set by a step in
its derivation. -/
def Bounds (ops : List ContextOp) (j : Nat) (t : Time) : Prop :=
  ∃ f, Limits ops f t ∧ Governs (origins ops) f j

theorem clock_append (ops : List ContextOp) (op : ContextOp) :
    clock (ops ++ [op]) = clock ops + op.waits := by
  simp [clock]

theorem lt_length_of_limits {ops : List ContextOp} {f : Nat} {t : Time} (h : Limits ops f t) :
    f < (origins ops).length := by
  obtain ⟨before, i, budget, after, rfl, rfl, -⟩ := h
  simp [origins, origin?]

/-- The budgets that a sequence sets, and then its last operation. -/
theorem limits_append {ops : List ContextOp} {op : ContextOp} {f : Nat} {t : Time} :
    Limits (ops ++ [op]) f t ↔ Limits ops f t ∨ ∃ i budget, op = .withTimeout i budget ∧
      f = (origins ops).length ∧ t = clock ops + budget ∧ t < Time.horizon := by
  constructor
  · rintro ⟨before, i, budget, after, hops, ht⟩
    rcases List.eq_nil_or_concat after with rfl | ⟨init, last, rfl⟩
    · obtain ⟨rfl, hop⟩ := List.append_inj' hops rfl
      exact Or.inr ⟨i, budget, List.singleton_inj.1 hop, ht⟩
    · have hops' : ops ++ [op] = (before ++ .withTimeout i budget :: init) ++ [last] := by
        simpa using hops
      exact Or.inl ⟨before, i, budget, init, (List.append_inj' hops' rfl).1, ht⟩
  · rintro (⟨before, i, budget, after, rfl, ht⟩ | ⟨i, budget, rfl, ht⟩)
    · exact ⟨before, i, budget, after ++ [op], by simp, ht⟩
    · exact ⟨ops, i, budget, [], rfl, ht⟩

/-- What bounds a handle bounds all that it governs. -/
theorem Bounds.trans {ops : List ContextOp} {i j : Nat} {t : Time} (h : Bounds ops i t)
    (hij : Governs (origins ops) i j) : Bounds ops j t :=
  h.imp fun _ hf => ⟨hf.1, hf.2.trans hij⟩

end ContextOp

open ContextOp

/-! ## Governance from one operation to the next -/

/-- A further operation leaves handles on their nodes. -/
theorem Handles.nodes_of_step? {s t : Handles} {op : ContextOp} (hst : s.step? op = some t)
    {f m : Nat} (hf : s.nodes[f]? = some m) : t.nodes[f]? = some m := by
  obtain ⟨ms, hms⟩ := Handles.nodes_step? hst
  exact hms ▸ getElem?_append_of_eq_some hf ms

/-- What is derived is on a node of its own. -/
theorem Handles.nodes_of_derived {s t : Handles} {op : ContextOp} {i : Nat}
    (hst : s.step? op = some t) (hop : op.origin? = some (.derived i)) :
    t.nodes = s.nodes ++ [s.contexts.nodes.length] := by
  cases op <;> cases hop
  all_goals
    obtain ⟨c, -, rfl⟩ := Option.map_eq_some_iff.1 hst
    exact nodes_hold s _

namespace Faithful

variable {ops : List ContextOp} {s t : Handles} {op : ContextOp}

theorem node_of_lt (h : Faithful ops s) {f : Nat} (hf : f < (origins ops).length) :
    ∃ m, s.nodes[f]? = some m :=
  h.shape.node_of_origin (List.getElem?_eq_getElem hf)

/-- A further operation changes nothing about which of the old handles govern each other. -/
theorem governs_append_iff (h : Faithful ops s) (hst : s.step? op = some t) {i j m n : Nat}
    (hi : s.nodes[i]? = some m) (hj : s.nodes[j]? = some n) :
    Governs (origins (ops ++ [op])) i j ↔ Governs (origins ops) i j := by
  have ht := h.step hst
  rw [h.shape.governs_iff h.wellFormed hi hj,
    ht.shape.governs_iff ht.wellFormed (Handles.nodes_of_step? hst hi)
      (Handles.nodes_of_step? hst hj),
    Handles.lineage_step? hst (h.shape.lt_length hj)]

/-- What was made earlier governs a handle that is derived or copied iff it governs the one from
which that was made. -/
theorem governs_new_iff (h : Faithful ops s) (hst : s.step? op = some t) {i f m n : Nat}
    (hop : op.origin? = some (.derived i) ∨ op.origin? = some (.copied i))
    (hf : s.nodes[f]? = some m) (hi : s.nodes[i]? = some n) :
    Governs (origins (ops ++ [op])) f (origins ops).length ↔ Governs (origins ops) f i := by
  have ht := h.step hst
  rw [← h.governs_append_iff hst hf hi]
  have horigin : (origins (ops ++ [op]))[(origins ops).length]? = op.origin? := by
    rw [origins_append]
    rcases hop with hop | hop <;> simp [hop]
  rcases hop with hop | hop
  · rw [hop] at horigin
    refine ⟨fun hfn => ?_, fun hfi => .derived horigin hfi⟩
    -- the new handle is on a node of its own, so what governs it comes by way of the other one
    have hnew := Handles.nodes_of_derived hst hop
    have hk : t.nodes[(origins ops).length]? = some s.contexts.nodes.length := by
      rw [hnew, ← h.shape.length_eq, List.getElem?_concat_length]
    obtain ⟨p, hp, hpar⟩ := ht.shape.derived horigin hk
    have hf' := Handles.nodes_of_step? hst hf
    have hmem := (ht.shape.governs_iff ht.wellFormed hf' hk).1 hfn
    rcases (Contexts.mem_lineage_iff ht.wellFormed).1 hmem with rfl | ⟨q, hq, hmq⟩
    · exact absurd (h.shape.lt_length hf) (lt_irrefl _)
    · obtain rfl := Option.some.inj (hq.symm.trans hpar)
      exact (ht.shape.governs_iff ht.wellFormed hf' hp).2 hmq
  · rw [hop] at horigin
    exact ⟨fun hfn => .original horigin hfn, fun hfi => .copied horigin hfi⟩

/-- What is derived governs nothing that was there before. -/
theorem not_governs_old (h : Faithful ops s) (hst : s.step? op = some t) {i j n : Nat}
    (hop : op.origin? = some (.derived i)) (hj : s.nodes[j]? = some n) :
    ¬ Governs (origins (ops ++ [op])) (origins ops).length j := by
  intro hgov
  have ht := h.step hst
  have hk : t.nodes[(origins ops).length]? = some s.contexts.nodes.length := by
    rw [Handles.nodes_of_derived hst hop, ← h.shape.length_eq, List.getElem?_concat_length]
  have hmem := (ht.shape.governs_iff ht.wellFormed hk (Handles.nodes_of_step? hst hj)).1 hgov
  exact absurd (Contexts.le_of_mem_lineage hmem) (Nat.not_le.2 (h.shape.lt_length hj))

/-- A context without bounds is governed by nothing that was there before. -/
theorem not_governs_root (h : Faithful ops s) (hst : s.step? .background = some t) {f m : Nat}
    (hf : s.nodes[f]? = some m) :
    ¬ Governs (origins (ops ++ [.background])) f (origins ops).length := by
  intro hgov
  have ht := h.step hst
  have hroot := hst
  cases hst
  have hk : (s.hold s.contexts.background).nodes[(origins ops).length]? =
      some s.contexts.nodes.length := by
    rw [Handles.nodes_hold, ← h.shape.length_eq, List.getElem?_concat_length]
    rfl
  have hmem := (ht.shape.governs_iff ht.wellFormed
    (Handles.nodes_of_step? hroot hf) hk).1 hgov
  rw [show (s.hold s.contexts.background).contexts.lineage s.contexts.nodes.length =
    [s.contexts.nodes.length] from Contexts.lineage_append_root _ _, List.mem_singleton] at hmem
  exact absurd (hmem ▸ h.shape.lt_length hf) (lt_irrefl _)

end Faithful

/-! ## The bounds from one operation to the next -/

namespace Faithful

variable {ops : List ContextOp} {s t : Handles} {op : ContextOp}

/-- A further operation sets no new bounds to the handles that are there. -/
theorem bounds_old_iff (h : Faithful ops s) (hst : s.step? op = some t) {j n : Nat}
    (hj : s.nodes[j]? = some n) (u : Time) : Bounds (ops ++ [op]) j u ↔ Bounds ops j u := by
  constructor
  · rintro ⟨f, hf, hgov⟩
    rcases limits_append.1 hf with hf | ⟨i, budget, rfl, rfl, -⟩
    · obtain ⟨m, hm⟩ := h.node_of_lt (lt_length_of_limits hf)
      exact ⟨f, hf, (h.governs_append_iff hst hm hj).1 hgov⟩
    · exact absurd hgov (h.not_governs_old hst rfl hj)
  · rintro ⟨f, hf, hgov⟩
    obtain ⟨m, hm⟩ := h.node_of_lt (lt_length_of_limits hf)
    exact ⟨f, limits_append.2 (Or.inl hf), (h.governs_append_iff hst hm hj).2 hgov⟩

/-- A handle that is derived or copied has the bounds of the one from which it was made, and the one
that its own step sets. -/
theorem bounds_new_iff (h : Faithful ops s) (hst : s.step? op = some t) {i n : Nat}
    (hop : op.origin? = some (.derived i) ∨ op.origin? = some (.copied i))
    (hi : s.nodes[i]? = some n) (u : Time) : Bounds (ops ++ [op]) (origins ops).length u ↔
      Bounds ops i u ∨ ∃ k budget, op = .withTimeout k budget ∧ u = clock ops + budget ∧
        u < Time.horizon := by
  constructor
  · rintro ⟨f, hf, hgov⟩
    rcases limits_append.1 hf with hf | ⟨k, budget, hk, -, hu⟩
    · obtain ⟨m, hm⟩ := h.node_of_lt (lt_length_of_limits hf)
      exact Or.inl ⟨f, hf, (h.governs_new_iff hst hop hm hi).1 hgov⟩
    · exact Or.inr ⟨k, budget, hk, hu⟩
  · rintro (⟨f, hf, hgov⟩ | ⟨k, budget, hk, hu⟩)
    · obtain ⟨m, hm⟩ := h.node_of_lt (lt_length_of_limits hf)
      exact ⟨f, limits_append.2 (Or.inl hf), (h.governs_new_iff hst hop hm hi).2 hgov⟩
    · exact ⟨_, limits_append.2 (Or.inr ⟨k, budget, hk, rfl, hu⟩), .self⟩

theorem not_bounds_root (h : Faithful ops s) (hst : s.step? .background = some t) (u : Time) :
    ¬ Bounds (ops ++ [.background]) (origins ops).length u := by
  rintro ⟨f, hf, hgov⟩
  rcases limits_append.1 hf with hf | ⟨k, budget, hk, -⟩
  · obtain ⟨m, hm⟩ := h.node_of_lt (lt_length_of_limits hf)
    exact h.not_governs_root hst hm hgov
  · cases hk

end Faithful

/-! ## Deadlines that the operations tell of -/

/-- The contexts of all handles, dropped or not. -/
def Handles.held (s : Handles) : List Context := s.handles.map Handle.context

namespace Handles

theorem held_hold (s : Handles) (made : Contexts × Context) :
    (s.hold made).held = s.held ++ [made.2] := by
  simp [held, hold]

theorem held_of_context? {s : Handles} {i : Nat} {c : Context} (h : s.context? i = some c) :
    s.held[i]? = some c := by
  obtain ⟨x, hx, hc⟩ := Option.bind_eq_some_iff.1 h
  split at hc
  · cases hc
    rw [held, List.getElem?_map, hx]
    rfl
  · cases hc

theorem nodes_of_held {s : Handles} {i : Nat} {c : Context} (h : s.held[i]? = some c) :
    s.nodes[i]? = some c.node := by
  have : s.nodes = s.held.map Context.node := by simp [nodes, held]
  rw [this, List.getElem?_map, h, Option.map_some]

/-- Handles keep their contexts. -/
theorem held_step? {s t : Handles} {op : ContextOp} (h : s.step? op = some t) :
    ∃ cs, t.held = s.held ++ cs := by
  cases op with
  | background =>
    cases h
    exact ⟨_, held_hold s _⟩
  | child i | withTimeout i _ | clone i =>
    obtain ⟨c, -, rfl⟩ := Option.map_eq_some_iff.1 h
    exact ⟨_, held_hold s _⟩
  | cancel i | cancelOnDrop i | dropGuard i =>
    obtain ⟨c, -, rfl⟩ := Option.map_eq_some_iff.1 h
    exact ⟨[], (List.append_nil _).symm⟩
  | drop i =>
    obtain ⟨c, -, rfl⟩ := Option.map_eq_some_iff.1 h
    refine ⟨[], ?_⟩
    rw [List.append_nil]
    exact map_modify_of_eq Handle.context (fun x => { x with live := false }) (fun _ => rfl) _ i
  | wait time =>
    cases h
    exact ⟨[], (List.append_nil _).symm⟩

/-- An operation takes the time that it waits, and no other. -/
theorem now_step? {s t : Handles} {op : ContextOp} (h : s.step? op = some t) :
    t.now = s.now + op.waits := by
  cases op with
  | background | wait =>
    cases h
    rfl
  | _ =>
    obtain ⟨c, -, rfl⟩ := Option.map_eq_some_iff.1 h
    rfl

end Handles

/-- The clock and the deadlines after some operations are the ones that they tell of. -/
structure Timed (ops : List ContextOp) (s : Handles) : Prop where
  now_eq : s.now = clock ops
  earliest : ∀ {j : Nat} {c : Context}, s.held[j]? = some c → IsEarliest (Bounds ops j) c.deadline

namespace Timed

variable {ops : List ContextOp} {s t : Handles} {op : ContextOp}

theorem empty : Timed [] {} where
  now_eq := rfl
  earliest h := by simp [Handles.held] at h

/-- No handle is made. -/
theorem keep (h : Timed ops s) (hf : Faithful ops s) (hst : s.step? op = some t)
    (hheld : t.held = s.held) : Timed (ops ++ [op]) t where
  now_eq := by rw [Handles.now_step? hst, h.now_eq, clock_append]
  earliest hj := by
    rw [hheld] at hj
    exact (h.earliest hj).congr (hf.bounds_old_iff hst (Handles.nodes_of_held hj))

/-- A handle is made. -/
theorem make (h : Timed ops s) (hf : Faithful ops s) (hst : s.step? op = some t) {c : Context}
    (hheld : t.held = s.held ++ [c])
    (hc : IsEarliest (Bounds (ops ++ [op]) (origins ops).length) c.deadline) :
    Timed (ops ++ [op]) t where
  now_eq := by rw [Handles.now_step? hst, h.now_eq, clock_append]
  earliest {j d} hj := by
    rw [hheld] at hj
    rcases getElem?_append_singleton hj with hj | ⟨rfl, rfl⟩
    · exact (h.earliest hj).congr (hf.bounds_old_iff hst (Handles.nodes_of_held hj))
    · have hlen : s.held.length = (origins ops).length := by
        rw [← hf.shape.length_eq, Handles.held, Handles.nodes, List.length_map, List.length_map]
      rwa [hlen]

/-- A handle is made whose context has the deadline of the one from which it is derived or copied. -/
theorem inherit (h : Timed ops s) (hf : Faithful ops s) (hst : s.step? op = some t) {i : Nat}
    {b c : Context} (hop : op.origin? = some (.derived i) ∨ op.origin? = some (.copied i))
    (hfree : ∀ k budget, op ≠ .withTimeout k budget) (hi : s.held[i]? = some b)
    (hheld : t.held = s.held ++ [c]) (hc : c.deadline = b.deadline) : Timed (ops ++ [op]) t := by
  refine h.make hf hst hheld ?_
  rw [hc]
  refine (h.earliest hi).congr fun u => ?_
  rw [hf.bounds_new_iff hst hop (Handles.nodes_of_held hi)]
  simp [hfree]

/-- **Every operation keeps the deadlines the earliest bounds.** -/
theorem step (h : Timed ops s) (hf : Faithful ops s) (hst : s.step? op = some t) :
    Timed (ops ++ [op]) t := by
  cases op with
  | background =>
    refine h.make hf hst (c := s.contexts.background.2) ?_ (hf.not_bounds_root hst)
    cases hst
    exact Handles.held_hold s _
  | child i =>
    obtain ⟨c, hc, rfl⟩ := Option.map_eq_some_iff.1 hst
    exact h.inherit hf hst (Or.inl rfl) nofun (Handles.held_of_context? hc)
      (Handles.held_hold s _) rfl
  | clone i =>
    obtain ⟨c, hc, rfl⟩ := Option.map_eq_some_iff.1 hst
    exact h.inherit hf hst (Or.inr rfl) nofun (Handles.held_of_context? hc)
      (Handles.held_hold s _) rfl
  | withTimeout i budget =>
    obtain ⟨c, hc, rfl⟩ := Option.map_eq_some_iff.1 hst
    have hi := Handles.held_of_context? hc
    refine h.make hf hst (Handles.held_hold s _)
      (((h.earliest hi).earlier (isEarliest_after? s.now budget)).congr fun u => ?_)
    rw [hf.bounds_new_iff hst (Or.inl rfl) (Handles.nodes_of_held hi), h.now_eq]
    refine or_congr_right ⟨?_, fun hu => ⟨i, budget, rfl, hu⟩⟩
    rintro ⟨k, b, hk, hu⟩
    cases hk
    exact hu
  | cancel i | cancelOnDrop i | dropGuard i =>
    refine h.keep hf hst ?_
    obtain ⟨c, -, rfl⟩ := Option.map_eq_some_iff.1 hst
    rfl
  | drop i =>
    refine h.keep hf hst ?_
    obtain ⟨c, -, rfl⟩ := Option.map_eq_some_iff.1 hst
    exact map_modify_of_eq Handle.context (fun x => { x with live := false }) (fun _ => rfl) _ i
  | wait time =>
    refine h.keep hf hst ?_
    cases hst
    rfl

theorem run {more : List ContextOp} (h : Timed ops s) (hf : Faithful ops s)
    (hrun : s.run? more = some t) : Timed (ops ++ more) t := by
  induction more generalizing ops s with
  | nil =>
    cases hrun
    simpa using h
  | cons op more ih =>
    rw [Handles.run?, List.foldlM_cons] at hrun
    obtain ⟨u, hu, hrest⟩ := Option.bind_eq_some_iff.1 hrun
    have := ih (h.step hf hu) (hf.step hu) hrest
    rwa [List.append_assoc, List.singleton_append] at this

end Timed

theorem timed_of_run? {ops : List ContextOp} {s : Handles}
    (h : ({} : Handles).run? ops = some s) : Timed ops s := by
  simpa using Timed.empty.run Faithful.empty h

/-! ## What a context says of itself -/

theorem Context.remaining_eq_zero_iff {c : Context} {now : Time} :
    c.remaining now = some 0 ↔ ∃ d ∈ c.deadline, d ≤ now := by
  rw [Context.remaining, Option.map_eq_some_iff]
  exact exists_congr fun d => and_congr_right fun _ => Nat.sub_eq_zero_iff_le

namespace Contexts

variable {cs ds : Contexts} {b c : Context} {now u : Time}

theorem isDone_iff : cs.isDone c now = true ↔
    cs.isCanceled c.node = true ∨ ∃ d ∈ c.deadline, d ≤ now := by
  rw [isDone, Option.isSome_iff_ne_none, ne_eq, error?_eq_none_iff, not_and_or, not_not, not_not]

/-- How far a context has come: it goes on, is past its deadline, or is cancelled. -/
def severity : Option ContextError → Nat
  | none => 0
  | some .deadlineExceeded => 1
  | some .canceled => 2

theorem severity_error? (cs : Contexts) (c : Context) (now : Time) :
    severity (cs.error? c now) =
      if cs.isCanceled c.node then 2 else if c.deadline.any (· ≤ now) then 1 else 0 := by
  unfold error?
  cases cs.isCanceled c.node with
  | true => rfl
  | false =>
    cases c.deadline with
    | none => rfl
    | some d => by_cases h : d ≤ now <;> simp [h, severity]

/-- While time passes and contexts are cancelled, it only gets worse. -/
theorem severity_error?_le (hc : cs.isCanceled c.node = true → ds.isCanceled c.node = true)
    (hu : now ≤ u) : severity (cs.error? c now) ≤ severity (ds.error? c u) := by
  have hd : c.deadline.any (· ≤ now) = true → c.deadline.any (· ≤ u) = true := by
    cases c.deadline with
    | none => exact id
    | some d =>
      intro h
      exact decide_eq_true ((of_decide_eq_true h).trans hu)
  rw [severity_error?, severity_error?]
  by_cases hcs : cs.isCanceled c.node = true
  · simp [hcs, hc hcs]
  · by_cases hnow : c.deadline.any (· ≤ now) = true
    · rw [if_neg hcs, if_pos hnow, hd hnow]
      split <;> simp
    · rw [if_neg hcs, if_neg hnow]
      exact Nat.zero_le _

/-! ## What those are told who wait -/

/-- The answers that a wait for the end of a context may bring at some time.  If there are two, either
may be given. -/
inductive Resolves (cs : Contexts) (c : Context) (now : Time) : ContextError → Prop
  | canceled : cs.isCanceled c.node = true → Resolves cs c now .canceled
  | deadlineExceeded {d : Time} : c.deadline = some d → now.hasFired d = true →
      Resolves cs c now .deadlineExceeded

theorem error?_of_resolves {e : ContextError} (h : cs.Resolves c now e) :
    (e = .canceled → cs.error? c now = some .canceled) ∧ cs.error? c now ≠ none := by
  rw [error?_eq_canceled_iff, ne_eq, error?_eq_none_iff]
  cases h with
  | canceled hc => simp [hc]
  | deadlineExceeded hd hfired =>
    refine ⟨nofun, fun hnone => hnone.2 ⟨_, hd, Time.le_of_hasFired hfired⟩⟩

/-- A wait is over as soon as the context is cancelled or its timer has gone off. -/
theorem exists_resolves_iff : (∃ e, cs.Resolves c now e) ↔
    cs.isCanceled c.node = true ∨ ∃ d ∈ c.deadline, now.hasFired d = true := by
  constructor
  · rintro ⟨e, he⟩
    cases he with
    | canceled hc => exact Or.inl hc
    | deadlineExceeded hd hfired => exact Or.inr ⟨_, hd, hfired⟩
  · rintro (hc | ⟨d, hd, hfired⟩)
    · exact ⟨_, .canceled hc⟩
    · exact ⟨_, .deadlineExceeded hd hfired⟩

theorem resolves_of_awaited? {e : ContextError} (h : cs.awaited? c now = some e) :
    cs.Resolves c now e := by
  unfold awaited? at h
  split at h
  · rename_i hc
    obtain rfl := Option.some.inj h
    exact .canceled hc
  · split at h
    · rename_i d hd
      split at h
      · rename_i hfired
        obtain rfl := Option.some.inj h
        exact .deadlineExceeded hd hfired
      · cases h
    · cases h

theorem not_resolves_of_awaited? (h : cs.awaited? c now = none) (e : ContextError) :
    ¬ cs.Resolves c now e := by
  obtain ⟨hc, hd⟩ := (Task.awaited?_eq_none_iff c).1 h
  intro he
  cases he with
  | canceled hcan => exact absurd hcan (by simp [hc])
  | deadlineExceeded hdl hfired => exact absurd hfired (by simp [hd _ hdl])

/-- As long as its timer has not gone off there is no answer to who has to wait. -/
theorem not_resolves_before (hnone : cs.awaited? c now = none) {v : Time} (hl : now ≤ v)
    (hv : ∀ d ∈ c.deadline, v < now.wakeUp d) (e : ContextError) : ¬ cs.Resolves c v e := by
  obtain ⟨hc, -⟩ := (Task.awaited?_eq_none_iff c).1 hnone
  refine not_resolves_of_awaited? ((Task.awaited?_eq_none_iff c).2 ⟨hc, fun d hd => ?_⟩) e
  exact Time.hasFired_eq_false_of_lt hl (hv d hd)

/-- **A wait ends with the first answer there is**, unless patience ends before. -/
theorem resolves_await {patience : Duration} {r : Option ContextError}
    (h : cs.await c now patience = (u, r)) : now ≤ u ∧
      (∀ e, r = some e → cs.Resolves c u e) ∧
      (r = none → u = now.wakeUp (now.sleepUntil patience) ∧ ∀ e, ¬ cs.Resolves c u e) ∧
      ∀ v, now ≤ v → v < u → ∀ e, ¬ cs.Resolves c v e := by
  unfold await at h
  split at h
  case h_1 e he =>
    cases h
    refine ⟨le_rfl, ?_, nofun, ?_⟩
    · rintro _ ⟨⟩
      exact resolves_of_awaited? he
    · exact fun v hl hv => absurd hv hl.not_gt
  case h_2 hnone =>
    cases hdl : c.deadline with
    | none =>
      rw [hdl] at h
      cases h
      refine ⟨Time.le_wakeUp _ _, nofun, fun _ => ⟨rfl, ?_⟩, fun v hl _ => ?_⟩
      · exact not_resolves_before hnone (Time.le_wakeUp _ _) (by simp [hdl])
      · exact not_resolves_before hnone hl (by simp [hdl])
    | some d =>
      rw [hdl] at h
      dsimp only [Option.map_some] at h
      split at h
      · cases h
        refine ⟨Time.le_wakeUp _ _, ?_, nofun, fun v hl hv => ?_⟩
        · rintro _ ⟨⟩
          exact .deadlineExceeded hdl (Time.hasFired_wakeUp _ _)
        · exact not_resolves_before hnone hl (by simpa [hdl])
      · rename_i hlt
        cases h
        have hlt' := Nat.not_le.1 hlt
        refine ⟨Time.le_wakeUp _ _, nofun, fun _ => ⟨rfl, ?_⟩, fun v hl hv => ?_⟩
        · exact not_resolves_before hnone (Time.le_wakeUp _ _) (by simpa [hdl])
        · exact not_resolves_before hnone hl (by simpa [hdl] using hv.trans hlt')

end Contexts

/-! ## What is derived ends with what it is derived from -/

section

variable {ops more : List ContextOp} {s t : Handles} {op : ContextOp} {i j : Nat} {b c : Context}

/-- What is governed has no later deadline. -/
theorem Timed.deadline_le (h : Timed ops s) (hij : Governs (origins ops) i j)
    (hi : s.held[i]? = some b) (hj : s.held[j]? = some c) :
    ∀ d ∈ b.deadline, ∃ e ∈ c.deadline, e ≤ d :=
  (h.earliest hi).anti (h.earliest hj) fun _ hb => hb.trans hij

/-- **What is derived from a context that has ended has ended.** -/
theorem isDone_of_governs (hf : Faithful ops s) (h : Timed ops s) (hij : Governs (origins ops) i j)
    (hi : s.held[i]? = some b) (hj : s.held[j]? = some c)
    (hb : s.contexts.isDone b s.now = true) : s.contexts.isDone c s.now = true := by
  rw [Contexts.isDone_iff] at hb ⊢
  rcases hb with hb | ⟨d, hd, hle⟩
  · have hmem := (hf.shape.governs_iff hf.wellFormed (Handles.nodes_of_held hi)
      (Handles.nodes_of_held hj)).1 hij
    exact Or.inl (Contexts.isCanceled_of_mem_lineage hf.wellFormed hmem hb)
  · obtain ⟨e, he, hed⟩ := h.deadline_le hij hi hj d hd
    exact Or.inr ⟨e, he, hed.trans hle⟩

/-- A handle keeps its context, and an operation neither turns back the clock nor revives a context. -/
theorem Faithful.worsens_step (hf : Faithful ops s) (hst : s.step? op = some t)
    (hj : s.held[j]? = some c) : t.held[j]? = some c ∧ s.now ≤ t.now ∧
      (s.contexts.isCanceled c.node = true → t.contexts.isCanceled c.node = true) := by
  refine ⟨?_, ?_, fun hc => (hf.canceled_step_iff hst (Handles.nodes_of_held hj)).2 (Or.inl hc)⟩
  · obtain ⟨cs, hcs⟩ := Handles.held_step? hst
    exact hcs ▸ getElem?_append_of_eq_some hj cs
  · rw [Handles.now_step? hst]
    exact Nat.le_add_right _ _

theorem Faithful.worsens_run (hf : Faithful ops s) (hrun : s.run? more = some t)
    (hj : s.held[j]? = some c) : t.held[j]? = some c ∧ s.now ≤ t.now ∧
      (s.contexts.isCanceled c.node = true → t.contexts.isCanceled c.node = true) := by
  induction more generalizing ops s with
  | nil =>
    cases hrun
    exact ⟨hj, le_rfl, id⟩
  | cons op more ih =>
    rw [Handles.run?, List.foldlM_cons] at hrun
    obtain ⟨u, hu, hrest⟩ := Option.bind_eq_some_iff.1 hrun
    obtain ⟨hheld, hnow, hcan⟩ := hf.worsens_step hu hj
    obtain ⟨hheld', hnow', hcan'⟩ := ih (hf.step hu) hrest hheld
    exact ⟨hheld', hnow.trans hnow', hcan' ∘ hcan⟩

/-- What a context says of itself only ever gets worse. -/
theorem severity_le_of_run? (hf : Faithful ops s) (hrun : s.run? more = some t)
    (hj : s.held[j]? = some c) : Contexts.severity (s.contexts.error? c s.now) ≤
      Contexts.severity (t.contexts.error? c t.now) :=
  have ⟨_, hnow, hcan⟩ := hf.worsens_run hrun hj
  Contexts.severity_error?_le hcan hnow

end

/-! ## All views together -/

/-- **When a context ends, and what it says of that, follows from its derivation.**  After any
operations, for every live context:

* its deadline is the earliest time, among those that can be represented, at which a budget runs out
  that was set by a step in its derivation; so it is no later than that of any context above it;
* it has ended if any context above it has;
* whatever is done further, its handle keeps it, and it goes from no error to a missed deadline and
  from either to being cancelled, but never back;
* the time that is left is unbounded iff there is no deadline, and zero iff that has been reached;
* a wait for its end brings only what is then true of it: that it is cancelled, or that it has ended.
  It has an answer as soon as the context is cancelled or the tick of its deadline has been reached,
  and it returns with the first answer there is. -/
theorem ends_by_derivation {ops : List ContextOp} {s : Handles}
    (hrun : ({} : Handles).run? ops = some s) {j : Nat} {c : Context} (hj : s.context? j = some c) :
    (IsEarliest (Bounds ops j) c.deadline ∧
      ∀ i b, Governs (origins ops) i j → s.context? i = some b →
        ∀ d ∈ b.deadline, ∃ e ∈ c.deadline, e ≤ d) ∧
    (∀ i b, Governs (origins ops) i j → s.context? i = some b →
      s.contexts.isDone b s.now = true → s.contexts.isDone c s.now = true) ∧
    (∀ more t, s.run? more = some t → (∀ b, t.context? j = some b → b = c) ∧
      Contexts.severity (s.contexts.error? c s.now) ≤
        Contexts.severity (t.contexts.error? c t.now)) ∧
    ((c.remaining s.now = none ↔ c.deadline = none) ∧
      (c.remaining s.now = some 0 ↔ ∃ d ∈ c.deadline, d ≤ s.now)) ∧
    (∀ e, s.contexts.Resolves c s.now e →
      (e = .canceled → s.contexts.error? c s.now = some .canceled) ∧
      s.contexts.error? c s.now ≠ none) ∧
    ((∃ e, s.contexts.Resolves c s.now e) ↔ s.contexts.error? c s.now = some .canceled ∨
      ∃ d ∈ c.deadline, d.tick * Duration.perMilli ≤ s.now) ∧
    ∀ patience u r, s.contexts.await c s.now patience = (u, r) →
      (∀ e, r = some e → s.contexts.Resolves c u e) ∧
      (r = none → s.now.sleepUntil patience ≤ u ∧ ∀ e, ¬ s.contexts.Resolves c u e) ∧
      ∀ v, s.now ≤ v → v < u → ∀ e, ¬ s.contexts.Resolves c v e := by
  have hf := faithful_of_run? hrun
  have ht := timed_of_run? hrun
  have hheld := Handles.held_of_context? hj
  refine ⟨⟨ht.earliest hheld, fun i b hij hi => ?_⟩, fun i b hij hi => ?_,
    fun more t hmore => ⟨fun b hb => ?_, severity_le_of_run? hf hmore hheld⟩, ⟨?_, ?_⟩,
    fun e => Contexts.error?_of_resolves, ?_, fun patience u r hr => ?_⟩
  · exact ht.deadline_le hij (Handles.held_of_context? hi) hheld
  · exact isDone_of_governs hf ht hij (Handles.held_of_context? hi) hheld
  · obtain ⟨hkept, -⟩ := hf.worsens_run hmore hheld
    exact Option.some.inj ((Handles.held_of_context? hb).symm.trans hkept)
  · exact Option.map_eq_none_iff
  · exact Context.remaining_eq_zero_iff
  · rw [Contexts.exists_resolves_iff, Contexts.error?_eq_canceled_iff]
    simp only [Time.hasFired_iff, Time.goesOff]
  · obtain ⟨-, hanswer, hnone, hfirst⟩ := Contexts.resolves_await hr
    refine ⟨hanswer, fun hr => ?_, hfirst⟩
    obtain ⟨rfl, hquiet⟩ := hnone hr
    exact ⟨Time.le_of_hasFired (Time.hasFired_wakeUp _ _), hquiet⟩

/-- A context with a generous budget of its own ends with the one from which it was derived, when the
budget of that one runs out. -/
theorem ends_with_the_one_above :
    ∃ s c, ({} : Handles).run? [.background, .withTimeout 0 5000000, .wait 3000000,
      .withTimeout 1 60000000, .wait 2000000] = some s ∧ s.context? 2 = some c ∧
      c.deadline = some 5000000 ∧ s.contexts.isDone c s.now = true := by
  have hrun : ({} : Handles).run? [.background, .withTimeout 0 5000000, .wait 3000000,
      .withTimeout 1 60000000, .wait 2000000] = some {
        contexts := ⟨[⟨none, false⟩, ⟨some 0, false⟩, ⟨some 1, false⟩]⟩
        handles := [⟨⟨0, none⟩, true⟩, ⟨⟨1, some 5000000⟩, true⟩, ⟨⟨2, some 5000000⟩, true⟩]
        now := 5000000 } := by decide +kernel
  have hends := ends_by_derivation (j := 2) hrun rfl
  refine ⟨_, ⟨2, some 5000000⟩, hrun, rfl, rfl, ?_⟩
  exact hends.2.1 1 ⟨1, some 5000000⟩ (.derived (j := 1) rfl .self) rfl rfl

end HealthService
