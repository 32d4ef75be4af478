import HealthService.Proofs.Readiness.Launch

/-!
# Contexts in front of others

The contexts that have been made before stand in front of those that are made later, and the later ones
are known by their places behind them.  A pool that has all its contexts behind some others is a pool like
any other (`Pool.behind`): nothing that happens to it reaches those in front, and nothing else is different.

* `Contexts.cancelNode_behind` — cancelling a node behind others leaves these alone.
* `Task.step?_shift` — a task takes the same steps behind other contexts.
* `Pool.run_behind` — **a run is the same behind other contexts**.
* `Readiness.launch_behind` — an evaluation starts in the same way behind other contexts.
-/

namespace HealthService

/-! ## Forests -/

/-- A node whose parent stands some places further back. -/
def Contexts.Node.shift (k : Nat) (x : Contexts.Node) : Contexts.Node :=
  { x with parent := x.parent.map (k + ·) }

/-- A context whose node stands some places further back. -/
def Context.shift (k : Nat) (c : Context) : Context := { c with node := k + c.node }

namespace Contexts

variable {cs : Contexts}

/-- A forest behind another one. -/
def behind (cs ds : Contexts) : Contexts := ⟨cs.nodes ++ ds.nodes.map (Node.shift cs.nodes.length)⟩

theorem isCanceled_behind (cs ds : Contexts) (n : Nat) :
    (cs.behind ds).isCanceled (cs.nodes.length + n) = ds.isCanceled n := by
  rw [isCanceled, isCanceled, behind, List.getElem?_append_right (Nat.le_add_right _ _),
    Nat.add_sub_cancel_left, List.getElem?_map]
  cases ds.nodes[n]? <;> rfl

theorem child_behind (cs ds : Contexts) (c : Context) :
    (cs.behind ds).child (c.shift cs.nodes.length) =
      (cs.behind (ds.child c).1, (ds.child c).2.shift cs.nodes.length) := by
  have hsame : (cs.behind ds).isCanceled (c.shift cs.nodes.length).node = ds.isCanceled c.node :=
    isCanceled_behind cs ds c.node
  simp only [child, hsame]
  simp [behind, Node.shift, Context.shift]

theorem withTimeout_behind (cs ds : Contexts) (c : Context) (now : Time) (budget : Duration) :
    (cs.behind ds).withTimeout (c.shift cs.nodes.length) now budget =
      (cs.behind (ds.withTimeout c now budget).1,
        (ds.withTimeout c now budget).2.shift cs.nodes.length) := by
  rw [withTimeout, child_behind]
  rfl

/-! ### Cancelling -/

theorem mark_append (node : Nat) (done xs ys : List Node) :
    mark node done (xs ++ ys) = mark node (mark node done xs) ys := by
  induction xs generalizing done with
  | nil => rfl
  | cons x xs ih => exact ih _

/-- Cancelling a node that is not there changes nothing. -/
theorem cancelNode_of_le (h : cs.WellFormed) {m : Nat} (hm : cs.nodes.length ≤ m) :
    cs.cancelNode m = cs := by
  have hsame : ∀ i, (cs.cancelNode m).isCanceled i = cs.isCanceled i := by
    intro i
    rw [Bool.eq_iff_iff, isCanceled_cancelNode h]
    refine ⟨fun hc => hc.resolve_right ?_, Or.inl⟩
    rintro ⟨hi, hmem⟩
    exact absurd (le_of_mem_lineage hmem) (by omega)
  refine congrArg Contexts.mk (List.ext_getElem? fun i => ?_)
  have hi := hsame i
  have hnode := nodes_cancelNode cs m i
  change (cs.cancelNode m).nodes[i]? = cs.nodes[i]?
  rw [isCanceled, isCanceled] at hi
  cases hx : cs.nodes[i]? with
  | none => rw [hnode, hx, Option.map_none]
  | some x =>
    rw [hx, Option.map_some] at hnode
    rw [hnode, hx] at hi
    rw [hnode]
    exact congrArg (fun b => some { x with canceled := b }) hi

theorem inherits_behind (cs : Contexts) (done : List Node) (parent : Option Nat) :
    inherits (cs.nodes ++ done.map (Node.shift cs.nodes.length)) (parent.map (cs.nodes.length + ·)) =
      inherits done parent := by
  cases parent with
  | none => rfl
  | some p => exact isCanceled_behind cs ⟨done⟩ p

theorem mark_behind (cs : Contexts) (n : Nat) (done rest : List Node) :
    mark (cs.nodes.length + n) (cs.nodes ++ done.map (Node.shift cs.nodes.length))
        (rest.map (Node.shift cs.nodes.length)) =
      cs.nodes ++ (mark n done rest).map (Node.shift cs.nodes.length) := by
  induction rest generalizing done with
  | nil => rfl
  | cons x rest ih =>
    have hhit : decide ((cs.nodes ++ done.map (Node.shift cs.nodes.length)).length =
        cs.nodes.length + n) = decide (done.length = n) := by
      simp
    rw [List.map_cons, mark, mark, hhit, ← ih, List.map_append, ← List.append_assoc]
    simp only [Node.shift, inherits_behind]
    rfl

/-- **Cancelling a node behind others leaves these alone.** -/
theorem cancelNode_behind (h : cs.WellFormed) (ds : Contexts) (n : Nat) :
    (cs.behind ds).cancelNode (cs.nodes.length + n) = cs.behind (ds.cancelNode n) := by
  have hfront : mark (cs.nodes.length + n) [] cs.nodes = cs.nodes :=
    congrArg Contexts.nodes (cancelNode_of_le h (Nat.le_add_right _ _))
  rw [cancelNode, behind, mark_append, hfront]
  have hback := mark_behind cs n [] ds.nodes
  rw [List.map_nil, List.append_nil] at hback
  rw [hback]
  rfl

end Contexts

/-! ## Tasks -/

namespace Task

/-- A task whose context has its node some places further back. -/
def shift (k : Nat) (t : Task) : Task := { t with context := t.context.shift k }

variable {cs : Contexts}

theorem error?_shift (cs ds : Contexts) (c : Context) (now : Time) :
    (cs.behind ds).error? (c.shift cs.nodes.length) now = ds.error? c now := by
  have hsame : (cs.behind ds).isCanceled (c.shift cs.nodes.length).node = ds.isCanceled c.node :=
    Contexts.isCanceled_behind cs ds c.node
  rw [Contexts.error?, Contexts.error?, hsame]
  rfl

theorem awaited?_shift (cs ds : Contexts) (c : Context) (now : Time) :
    (cs.behind ds).awaited? (c.shift cs.nodes.length) now = ds.awaited? c now := by
  have hsame : (cs.behind ds).isCanceled (c.shift cs.nodes.length).node = ds.isCanceled c.node :=
    Contexts.isCanceled_behind cs ds c.node
  rw [Contexts.awaited?, Contexts.awaited?, hsame]
  rfl

/-- **A task takes the same steps behind other contexts.** -/
theorem step?_shift (h : cs.WellFormed) (t : Task) (ds : Contexts) (now : Time) :
    (t.shift cs.nodes.length).step? (cs.behind ds) now =
      (t.step? ds now).map fun s => { s with contexts := cs.behind s.contexts } := by
  obtain ⟨name, c, started, progress⟩ := t
  have herror := error?_shift cs ds c now
  cases progress with
  | returned r e => rfl
  | panicked payload => rfl
  | running b =>
    cases b with
    | finish o =>
      simp only [step?, shift, herror]
      rfl
    | panic payload => rfl
    | act what next => rfl
    | cancel next =>
      have hcancel := Contexts.cancelNode_behind h ds c.node
      exact congrArg (fun c => some ({ contexts := c, progress := .running next } : Step)) hcancel
    | look next =>
      simp only [step?, shift, view, herror]
      rfl
    | sleepUntil d next =>
      simp only [step?, shift]
      split <;> rfl
    | race d w onDue onEnd =>
      simp only [step?, shift, awaited?_shift cs ds c now, Option.map_map]
      rfl

end Task

/-! ## Pools -/

namespace Pool

variable {cs : Contexts} {p q : Pool} {enough : Pool → Bool}

/-- A pool with all its contexts behind some others. -/
def behind (cs : Contexts) (p : Pool) : Pool :=
  { p with
    contexts := cs.behind p.contexts
    tasks := p.tasks.map (Task.shift cs.nodes.length)
    plans := p.plans.map fun x => { x with node := cs.nodes.length + x.node } }

theorem stepFirst?_behind (h : cs.WellFormed) (p : Pool) (before ts : List Task) :
    (p.behind cs).stepFirst? (before.map (Task.shift cs.nodes.length))
        (ts.map (Task.shift cs.nodes.length)) =
      (p.stepFirst? before ts).map (behind cs) := by
  induction ts generalizing before with
  | nil => rfl
  | cons t after ih =>
    have hstep : (t.shift cs.nodes.length).step? (p.behind cs).contexts (p.behind cs).now = _ :=
      Task.step?_shift h t p.contexts p.now
    rw [List.map_cons, stepFirst?, stepFirst?, hstep]
    cases t.step? p.contexts p.now with
    | some s =>
      simp [withStep, behind, Task.shift]
    | none =>
      have hrest := ih (before ++ [t])
      rw [List.map_append] at hrest
      exact hrest

theorem cancelFirst?_behind (h : cs.WellFormed) (p : Pool) (before xs : List Plan) :
    (p.behind cs).cancelFirst? (before.map fun x => { x with node := cs.nodes.length + x.node })
        (xs.map fun x => { x with node := cs.nodes.length + x.node }) =
      (p.cancelFirst? before xs).map (behind cs) := by
  induction xs generalizing before with
  | nil => rfl
  | cons x after ih =>
    rw [List.map_cons, cancelFirst?, cancelFirst?]
    show (if p.now.hasFired x.time = true then _ else _) = _
    split
    · have hcancel := Contexts.cancelNode_behind h p.contexts x.node
      simp [behind, hcancel]
    · have hrest := ih (before ++ [x])
      rw [List.map_append] at hrest
      exact hrest

theorem step?_behind (h : cs.WellFormed) (p : Pool) :
    (p.behind cs).step? = p.step?.map (behind cs) := by
  have hplans := cancelFirst?_behind h p [] p.plans
  have htasks := stepFirst?_behind h p [] p.tasks
  unfold step?
  change (p.behind cs).cancelFirst? [] (p.behind cs).plans = _ at hplans
  change (p.behind cs).stepFirst? [] (p.behind cs).tasks = _ at htasks
  rw [hplans, htasks]
  cases p.cancelFirst? [] p.plans <;> rfl

theorem next?_behind (cs : Contexts) (p : Pool) : (p.behind cs).next? = p.next? := by
  have htasks : ∀ t : Task, (t.shift cs.nodes.length).wakeUp? p.now = t.wakeUp? p.now := fun _ => rfl
  simp only [next?, behind, List.map_map, Function.comp_def, htasks]

theorem atTime_behind (cs : Contexts) (p : Pool) (u : Time) :
    (p.behind cs).atTime u = (p.atTime u).behind cs := rfl

theorem atLimit_behind (cs : Contexts) (p : Pool) (limit : Option Time) :
    (p.behind cs).atLimit limit = (p.atLimit limit).behind cs := by
  cases limit with
  | none => rfl
  | some l =>
    have hnow : (p.behind cs).now = p.now := rfl
    rw [atLimit, atLimit, hnow, atTime_behind]

/-- **A run is the same behind other contexts**, if these are nothing to who decides what is enough. -/
theorem run_behind (h : cs.WellFormed) (henough : ∀ p, enough (behind cs p) = enough p)
    (limit : Option Time) (p : Pool) :
    (p.behind cs).run enough limit = (p.run enough limit).behind cs := by
  induction p using rank.wf.induction with
  | _ p ih =>
    cases hend : enough p with
    | true => rw [run_of_enough hend, run_of_enough ((henough p).trans hend)]
    | false =>
      have hend' := (henough p).trans hend
      have hstep' := step?_behind h p
      have hnext' := next?_behind cs p
      cases hstep : p.step? with
      | some q =>
        rw [hstep] at hstep'
        rw [run_of_step hend hstep, run_of_step hend' hstep']
        exact ih q (step?_decreases hstep)
      | none =>
        rw [hstep] at hstep'
        by_cases hlast : ∀ u ∈ p.next?, p.isBeyond limit u = true
        · rw [run_of_limit hend hstep hlast, run_of_limit hend' hstep' (by rwa [hnext']),
            atLimit_behind]
        · push Not at hlast
          obtain ⟨u, hnext, hin⟩ := hlast
          have hin : p.isBeyond limit u = false := by simpa using hin
          cases hq : (p.atTime u).step? with
          | none => exact absurd hq (step?_atTime hnext)
          | some q =>
            have hq' := step?_behind h (p.atTime u)
            rw [hq] at hq'
            rw [run_of_time hend hstep hnext hin hq,
              run_of_time hend' hstep' (hnext'.trans hnext) hin hq']
            have hless : rank.rel q p := step?_decreases (p := p.atTime u) hq
            exact ih q hless

/-! ## Evaluations -/

theorem start_behind (cs : Contexts) (p : Pool) (ctx : Context) (budget : Option Duration) (c : Checker) :
    (p.behind cs).start (ctx.shift cs.nodes.length) budget c = (p.start ctx budget c).behind cs := by
  have hbudget : ∀ d, (cs.behind p.contexts).withTimeout (ctx.shift cs.nodes.length) p.now d = _ :=
    Contexts.withTimeout_behind cs p.contexts ctx p.now
  unfold start
  cases budget with
  | none => simp [behind, Task.shift]
  | some d =>
    by_cases hd : d = 0
    · simp [behind, Task.shift, hd]
    · simp only [behind, hd, if_false, hbudget]
      simp [Task.shift]

end Pool

namespace Readiness

open Pool

theorem derive_behind (r : Readiness) (cs : Contexts) (p : Pool) (parent : Context) :
    r.derive (p.behind cs) (parent.shift cs.nodes.length) =
      ((r.derive p parent).1.behind cs, (r.derive p parent).2.shift cs.nodes.length) := by
  have hchild : (cs.behind p.contexts).child (parent.shift cs.nodes.length) = _ :=
    Contexts.child_behind cs p.contexts parent
  have hbudget : ∀ d, (cs.behind p.contexts).withTimeout (parent.shift cs.nodes.length) p.now d = _ :=
    Contexts.withTimeout_behind cs p.contexts parent p.now
  unfold derive
  by_cases h : r.budgets.overall = 0
  · simp only [behind, h, if_true, hchild]
  · simp only [behind, h, if_false, hbudget]

/-- **An evaluation starts in the same way behind other contexts.** -/
theorem launch_behind (r : Readiness) (cs : Contexts) (p : Pool) (parent : Context) :
    r.launch (p.behind cs) (parent.shift cs.nodes.length) = (r.launch p parent).behind cs := by
  have hall : ∀ (checkers : List Checker) (q : Pool) (ctx : Context),
      checkers.foldl (fun q c => q.start (ctx.shift cs.nodes.length) r.budgets.checkBound c)
          (q.behind cs) =
        (checkers.foldl (fun q c => q.start ctx r.budgets.checkBound c) q).behind cs := by
    intro checkers
    induction checkers with
    | nil => exact fun _ _ => rfl
    | cons c checkers ih =>
      intro q ctx
      rw [List.foldl_cons, List.foldl_cons, start_behind]
      exact ih _ ctx
  rw [launch, derive_behind]
  exact hall _ _ _

end Readiness
end HealthService
