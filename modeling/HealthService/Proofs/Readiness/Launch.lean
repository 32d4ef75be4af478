import HealthService.Proofs.Pool.Moves
import HealthService.Readiness.Evaluation

/-!
# The start of an evaluation

An evaluation derives a context from the caller's and starts all checks in it.  `launch` is the pool
after that, and `launch_eq` says what is new in it: one node for the evaluation, one node for each
check if there is a budget for the single check, and the tasks in the order of the checkers.

* `task_launch` — the check at place `i` has the context `handed i`.
* `mem_lineage_handed` — **every check hangs on the context of its evaluation**, by a node of its
  own or, without a budget for the single check, directly.
* `isCanceled_handed` — a check starts out cancelled iff the caller is.
-/

namespace HealthService

/-! ## Contexts and tasks at the start -/

namespace Budgets

/-- The deadline of an evaluation that starts at some time in a context with some deadline. -/
def overallDeadline (b : Budgets) (now : Time) (deadline : Option Time) : Option Time :=
  if b.overall = 0 then deadline else Contexts.earlier deadline (now.after? b.overall)

/-- The deadline of a check of such an evaluation. -/
def checkDeadline (b : Budgets) (now : Time) (deadline : Option Time) : Option Time :=
  match b.checkBound with
  | some d => Contexts.earlier (b.overallDeadline now deadline) (now.after? d)
  | none => b.overallDeadline now deadline

theorem checkBound_ne_zero {b : Budgets} {d : Duration} (h : b.checkBound = some d) : d ≠ 0 := by
  simpa using (Option.filter_eq_some_iff.1 h).2

end Budgets

/-- A check that has just started. -/
def Checker.begun (c : Checker) (ctx : Context) (now : Time) : Task :=
  ⟨c.name, ctx, now, .running c.behaviour⟩

namespace Pool

variable {p : Pool} {ctx : Context}

theorem start_none (c : Checker) :
    p.start ctx none c = { p with tasks := p.tasks ++ [c.begun ctx p.now] } := rfl

theorem start_some {d : Duration} (hd : d ≠ 0) (c : Checker) :
    p.start ctx (some d) c =
      { p with
        contexts := (p.contexts.child ctx).1
        tasks := p.tasks ++ [c.begun ⟨p.contexts.nodes.length,
          Contexts.earlier ctx.deadline (p.now.after? d)⟩ p.now] } := by
  simp only [start, if_neg hd]
  rfl

/-- The context of a check that is started: one of its own if it has a budget. -/
def ownContext (p : Pool) (ctx : Context) : Option Duration → Context
  | some d => if d = 0 then ctx else (p.contexts.withTimeout ctx p.now d).2
  | none => ctx

/-- A check that is started comes after all others. -/
theorem task_start (p : Pool) (ctx : Context) (budget : Option Duration) (c : Checker) :
    (p.start ctx budget c).tasks = p.tasks ++ [c.begun (p.ownContext ctx budget) p.now] ∧
      (p.start ctx budget c).now = p.now := by
  unfold start ownContext
  cases budget with
  | none => exact ⟨rfl, rfl⟩
  | some d =>
    dsimp only
    split <;> exact ⟨rfl, rfl⟩

/-- A check that is run by itself comes to what its task comes to in the run. -/
theorem runCheck_eq {budget : Option Duration} {c : Checker} {u : Task}
    (hu : ((p.start ctx budget c).run (·.hasEndedFrom p.tasks.length) none).tasks[p.tasks.length]? =
      some u) :
    p.runCheck ctx budget c =
      ((p.start ctx budget c).run (·.hasEndedFrom p.tasks.length) none, u.progress) := by
  simp only [runCheck, hu]

theorem foldl_start_none (cs : List Checker) :
    cs.foldl (fun p c => p.start ctx none c) p =
      { p with tasks := p.tasks ++ cs.mapIdx fun _ c => c.begun ctx p.now } := by
  induction cs generalizing p with
  | nil => simp
  | cons c cs ih => rw [List.foldl_cons, ih, start_none]; simp

theorem foldl_start_some {d : Duration} (hd : d ≠ 0) (hctx : ctx.node < p.contexts.nodes.length)
    (cs : List Checker) :
    cs.foldl (fun p c => p.start ctx (some d) c) p =
      { p with
        contexts := ⟨p.contexts.nodes ++
          List.replicate cs.length ⟨some ctx.node, p.contexts.isCanceled ctx.node⟩⟩
        tasks := p.tasks ++ cs.mapIdx fun i c => c.begun ⟨p.contexts.nodes.length + i,
          Contexts.earlier ctx.deadline (p.now.after? d)⟩ p.now } := by
  induction cs generalizing p with
  | nil => simp
  | cons c cs ih =>
    have hlen : (p.contexts.child ctx).1.nodes.length = p.contexts.nodes.length + 1 := by
      simp [Contexts.child]
    have hsame : (p.contexts.child ctx).1.isCanceled ctx.node = p.contexts.isCanceled ctx.node :=
      Contexts.isCanceled_append_old _ _ hctx
    rw [List.foldl_cons, start_some hd, ih (by show _ < (p.contexts.child ctx).1.nodes.length; omega)]
    simp only [hlen, hsame]
    simp [Contexts.child, List.replicate_succ, Nat.add_assoc, Nat.add_comm 1]

end Pool

namespace Readiness

/-! ## The pool at the start -/

variable (r : Readiness) (p : Pool) (parent : Context)

/-- The pool in which an evaluation has started all its checks. -/
def launch : Pool := r.startAll (r.derive p parent).1 (r.derive p parent).2

/-- The context that the check at some place is handed. -/
def handed (i : Nat) : Context where
  node := match r.budgets.checkBound with
    | some _ => p.contexts.nodes.length + 1 + i
    | none => p.contexts.nodes.length
  deadline := r.budgets.checkDeadline p.now parent.deadline

/-- The nodes that are made for the single checks. -/
def checkNodes : List Contexts.Node :=
  match r.budgets.checkBound with
  | some _ => List.replicate r.checkers.length
      ⟨some p.contexts.nodes.length, p.contexts.isCanceled parent.node⟩
  | none => []

theorem derive_eq : r.derive p parent =
    ({ p with contexts := (p.contexts.child parent).1 },
      ⟨p.contexts.nodes.length, r.budgets.overallDeadline p.now parent.deadline⟩) := by
  by_cases h : r.budgets.overall = 0
  · simp only [derive, Budgets.overallDeadline, if_pos h]
    rfl
  · simp only [derive, Budgets.overallDeadline, if_neg h]
    rfl

/-- **What is new when an evaluation has started.** -/
theorem launch_eq : r.launch p parent =
    { p with
      contexts := ⟨(p.contexts.child parent).1.nodes ++ r.checkNodes p parent⟩
      tasks := p.tasks ++ r.checkers.mapIdx fun i c => c.begun (r.handed p parent i) p.now } := by
  have hnew : (p.contexts.child parent).1.isCanceled p.contexts.nodes.length =
      p.contexts.isCanceled parent.node := Contexts.isCanceled_append_new _ _
  have hlen : (p.contexts.child parent).1.nodes.length = p.contexts.nodes.length + 1 := by
    simp [Contexts.child]
  unfold launch startAll checkNodes handed Budgets.checkDeadline
  rw [derive_eq]
  cases hb : r.budgets.checkBound with
  | none =>
    simp only [Pool.foldl_start_none, List.append_nil]
  | some d =>
    rw [Pool.foldl_start_some (Budgets.checkBound_ne_zero hb) (by simp [hlen])]
    simp only [hnew, hlen]

theorem plans_launch : (r.launch p parent).plans = p.plans := by rw [launch_eq]

theorem now_launch : (r.launch p parent).now = p.now := by rw [launch_eq]

theorem length_launch : (r.launch p parent).contexts.nodes.length =
    p.contexts.nodes.length + 1 + (r.checkNodes p parent).length := by
  rw [launch_eq]
  simp only [Contexts.child, List.length_append, List.length_singleton]

theorem mem_checkNodes {x : Contexts.Node} (hx : x ∈ r.checkNodes p parent) :
    x = ⟨some p.contexts.nodes.length, p.contexts.isCanceled parent.node⟩ := by
  unfold checkNodes at hx
  split at hx
  · exact List.eq_of_mem_replicate hx
  · cases hx

/-! ## The tasks -/

variable {r}

/-- **The check at place `i` has the context `handed i`.** -/
theorem task_launch {i : Nat} {c : Checker} (hi : r.checkers[i]? = some c) :
    (r.launch p parent).tasks[p.tasks.length + i]? =
      some (c.begun (r.handed p parent i) p.now) := by
  rw [launch_eq]
  simp [List.getElem?_append_right, List.getElem?_mapIdx, hi]

/-- A task at the start is one from before, or a check that has just started. -/
theorem task_launch_cases {k : Nat} {t : Task} (hk : (r.launch p parent).tasks[k]? = some t) :
    p.tasks[k]? = some t ∨ ∃ i c, k = p.tasks.length + i ∧ r.checkers[i]? = some c ∧
      t = c.begun (r.handed p parent i) p.now := by
  rw [launch_eq] at hk
  by_cases hlt : k < p.tasks.length
  · left
    rwa [List.getElem?_append_left hlt] at hk
  · right
    rw [List.getElem?_append_right (by omega), List.getElem?_mapIdx] at hk
    obtain ⟨c, hc, rfl⟩ := Option.map_eq_some_iff.1 hk
    refine ⟨k - p.tasks.length, c, by omega, hc, rfl⟩

/-! ## The forest -/

section Forest

variable {p parent} (hp : p.contexts.WellFormed)
  (hparent : parent.node < p.contexts.nodes.length)

include hp hparent in
theorem wellFormed_launch : (r.launch p parent).contexts.WellFormed := by
  rw [launch_eq]
  refine Contexts.wellFormed_append_all (Contexts.wellFormed_child hp hparent) _ fun x hx q hq => ?_
  obtain rfl := mem_checkNodes r p parent hx
  obtain rfl := Option.some.inj hq
  refine ⟨by simp [Contexts.child], fun hc => ?_⟩
  rwa [Contexts.child, Contexts.isCanceled_append_new] at hc

include hparent in
theorem lineage_overall : (r.launch p parent).contexts.lineage p.contexts.nodes.length =
    p.contexts.nodes.length :: p.contexts.lineage parent.node := by
  rw [launch_eq]
  show Contexts.lineage ⟨(p.contexts.child parent).1.nodes ++ _⟩ _ = _
  rw [Contexts.lineage_append_old _ _ (by simp [Contexts.child])]
  exact Contexts.lineage_append_new _ _ hparent

/-- A check is handed the context of the evaluation, or one with a node of its own below that. -/
theorem node_handed (p : Pool) (parent : Context) {i : Nat} {c : Checker}
    (hi : r.checkers[i]? = some c) :
    (r.handed p parent i).node = p.contexts.nodes.length ∨
      (r.launch p parent).contexts.nodes[(r.handed p parent i).node]? =
        some ⟨some p.contexts.nodes.length, p.contexts.isCanceled parent.node⟩ := by
  rw [launch_eq]
  have hlt := (List.getElem?_eq_some_iff.1 hi).1
  unfold handed checkNodes
  cases r.budgets.checkBound with
  | none => exact Or.inl rfl
  | some d =>
    right
    have hlen : (p.contexts.child parent).1.nodes.length = p.contexts.nodes.length + 1 := by
      simp [Contexts.child]
    show ((p.contexts.child parent).1.nodes ++ _)[p.contexts.nodes.length + 1 + i]? = _
    rw [← hlen, List.getElem?_append_right (Nat.le_add_right _ i), Nat.add_sub_cancel_left]
    exact List.getElem?_replicate_of_lt hlt

include hp hparent in
/-- **Every check hangs on the context of its evaluation.** -/
theorem mem_lineage_handed {i : Nat} {c : Checker} (hi : r.checkers[i]? = some c) {n : Nat} :
    n ∈ (r.launch p parent).contexts.lineage (r.handed p parent i).node ↔
      n = (r.handed p parent i).node ∨ n = p.contexts.nodes.length ∨
        n ∈ p.contexts.lineage parent.node := by
  have htop : n ∈ (r.launch p parent).contexts.lineage p.contexts.nodes.length ↔
      n = p.contexts.nodes.length ∨ n ∈ p.contexts.lineage parent.node := by
    rw [lineage_overall hparent, List.mem_cons]
  rcases node_handed p parent hi with hnode | hnode
  · rw [hnode, htop]
    tauto
  · have hpar : (r.launch p parent).contexts.parent? (r.handed p parent i).node =
        some p.contexts.nodes.length := by rw [Contexts.parent?, hnode]; rfl
    rw [Contexts.mem_lineage_iff (wellFormed_launch hp hparent), hpar]
    simp [htop]

theorem isCanceled_overall (p : Pool) (parent : Context) :
    (r.launch p parent).contexts.isCanceled p.contexts.nodes.length =
      p.contexts.isCanceled parent.node := by
  rw [launch_eq]
  show Contexts.isCanceled ⟨(p.contexts.child parent).1.nodes ++ _⟩ _ = _
  rw [Contexts.isCanceled_append_old _ _ (by simp [Contexts.child])]
  exact Contexts.isCanceled_append_new _ _

/-- A check starts out cancelled iff the caller is. -/
theorem isCanceled_handed (p : Pool) (parent : Context) {i : Nat} {c : Checker}
    (hi : r.checkers[i]? = some c) :
    (r.launch p parent).contexts.isCanceled (r.handed p parent i).node =
      p.contexts.isCanceled parent.node := by
  rcases node_handed p parent hi with hnode | hnode
  · rw [hnode, isCanceled_overall]
  · rw [Contexts.isCanceled, hnode]

theorem lt_length_handed (p : Pool) (parent : Context) {i : Nat} {c : Checker}
    (hi : r.checkers[i]? = some c) :
    (r.handed p parent i).node < (r.launch p parent).contexts.nodes.length := by
  rcases node_handed p parent hi with hnode | hnode
  · rw [hnode, length_launch]
    omega
  · exact (List.getElem?_eq_some_iff.1 hnode).1

end Forest

end Readiness
end HealthService
