import HealthService.Proofs.Pool.Erasure
import HealthService.Proofs.Readiness.Alone

/-!
# What an evaluation leaves behind

An evaluation ends with a response or with a panic, or somebody drops it, at any moment and with its
checks anywhere (`Readiness.Ends`).  Its checks are not stopped by that; those that are left over go
on among the checks of later evaluations (`Served`).

* `ends_evaluate` — `Readiness.evaluate` is one of these endings, whatever the limit.
* `apart_of_served` — in every history no check can cancel a context that a caller has in hand.
* `isCanceled_of_ends` — **however an evaluation ends, the contexts of its checks are cancelled**.
* `mirrors_before` — what was there before goes on as if there were no evaluation.
* `mirrors_fresh` — a later evaluation goes on as if nothing were left over from earlier ones.
* `leaves_no_trace` — **all this together, for every evaluation in every history**.
-/

namespace HealthService

open Pool

/-! ## Endings and histories -/

namespace Readiness

/-- The pool when an evaluation that started in state `h` is over: its context is cancelled. -/
def left (h : HealthState) (q : Pool) : Pool :=
  { q with contexts := q.contexts.cancelNode h.pool.contexts.nodes.length }

/-- How an evaluation may end, with the steps in any order: it is concluded at some time after all
its checks have ended, or dropped at any moment. -/
inductive Ends (r : Readiness) (parent : Context) (h : HealthState) :
    Verdict → HealthState → List Entry → Prop
  | concluded {q : Pool} (hq : Passes (r.launch h.pool parent) q)
      (hend : q.hasEndedFrom h.pool.tasks.length = true) :
      Ends r parent h (r.conclude h.metrics (q.tasks.drop h.pool.tasks.length)).1
        ⟨left h q, (r.conclude h.metrics (q.tasks.drop h.pool.tasks.length)).2.1⟩
        (r.conclude h.metrics (q.tasks.drop h.pool.tasks.length)).2.2
  | dropped {q : Pool} (hq : Passes (r.launch h.pool parent) q) :
      Ends r parent h .abandoned ⟨left h q, h.metrics⟩ []

end Readiness

/-- The states of a service, and the contexts that its callers have in hand.  Callers may derive
contexts and cancel them, now or as planned for later, may look at the service at any time, and may
have readiness evaluated, one evaluation after another. -/
inductive Served : HealthState → List Context → Prop
  | start (now : Time) : Served { pool := { now := now } } []
  | background {h : HealthState} {cs : List Context} (hs : Served h cs) :
      Served { h with pool := { h.pool with contexts := h.pool.contexts.background.1 } }
        (h.pool.contexts.background.2 :: cs)
  | child {h : HealthState} {cs : List Context} {c : Context} (hs : Served h cs) (hc : c ∈ cs) :
      Served { h with pool := { h.pool with contexts := (h.pool.contexts.child c).1 } }
        ((h.pool.contexts.child c).2 :: cs)
  | withTimeout {h : HealthState} {cs : List Context} {c : Context} (hs : Served h cs) (hc : c ∈ cs)
      (budget : Duration) :
      Served { h with
          pool := { h.pool with contexts := (h.pool.contexts.withTimeout c h.pool.now budget).1 } }
        ((h.pool.contexts.withTimeout c h.pool.now budget).2 :: cs)
  | cancel {h : HealthState} {cs : List Context} {c : Context} (hs : Served h cs) (hc : c ∈ cs) :
      Served { h with pool := { h.pool with contexts := h.pool.contexts.cancel c } } cs
  | plan {h : HealthState} {cs : List Context} {c : Context} (hs : Served h cs) (hc : c ∈ cs)
      (time : Time) :
      Served { h with pool := { h.pool with plans := h.pool.plans ++ [⟨time, c.node⟩] } } cs
  | goes {h : HealthState} {cs : List Context} {q : Pool} (hs : Served h cs) (hg : Goes h.pool q) :
      Served { h with pool := q } cs
  | evaluated {h h' : HealthState} {cs : List Context} {r : Readiness} {c : Context} {v : Verdict}
      {entries : List Entry} (hs : Served h cs) (hc : c ∈ cs) (he : r.Ends c h v h' entries) :
      Served h' cs

/-! ## What every history keeps -/

/-- No task of a pool can cancel a context that a caller has in hand. -/
structure Pool.Apart (p : Pool) (cs : List Context) : Prop where
  wellFormed : p.contexts.WellFormed
  callers_lt : ∀ c ∈ cs, c.node < p.contexts.nodes.length
  plans_lt : ∀ x ∈ p.plans, x.node < p.contexts.nodes.length
  tasks_lt : ∀ t ∈ p.tasks, t.context.node < p.contexts.nodes.length
  apart : ∀ t ∈ p.tasks, ∀ c ∈ cs, t.context.node ∉ p.contexts.lineage c.node

namespace Pool.Apart

variable {p q : Pool} {cs : List Context} {c : Context}

/-- A caller gets a context with a node of its own. -/
theorem derive (h : p.Apart cs) {x : Contexts.Node} {d : Option Time}
    (hwf : Contexts.WellFormed ⟨p.contexts.nodes ++ [x]⟩)
    (hline : ∀ n < p.contexts.nodes.length,
      n ∈ Contexts.lineage ⟨p.contexts.nodes ++ [x]⟩ p.contexts.nodes.length →
        ∃ c ∈ cs, n ∈ p.contexts.lineage c.node) :
    Apart { p with contexts := ⟨p.contexts.nodes ++ [x]⟩ } (⟨p.contexts.nodes.length, d⟩ :: cs) where
  wellFormed := hwf
  callers_lt := by
    rw [List.forall_mem_cons]
    simp only [List.length_append, List.length_singleton]
    exact ⟨Nat.lt_succ_self _, fun c hc => Nat.lt_succ_of_lt (h.callers_lt c hc)⟩
  plans_lt y hy := by
    simp only [List.length_append, List.length_singleton]
    exact Nat.lt_succ_of_lt (h.plans_lt y hy)
  tasks_lt t ht := by
    simp only [List.length_append, List.length_singleton]
    exact Nat.lt_succ_of_lt (h.tasks_lt t ht)
  apart t ht := by
    rw [List.forall_mem_cons]
    refine ⟨fun hmem => ?_, fun c hc => ?_⟩
    · obtain ⟨c, hc, hin⟩ := hline _ (h.tasks_lt t ht) hmem
      exact h.apart t ht c hc hin
    · rw [Contexts.lineage_append_old _ _ (h.callers_lt c hc)]
      exact h.apart t ht c hc

theorem child (h : p.Apart cs) (hc : c ∈ cs) (d : Option Time) :
    Apart { p with contexts := (p.contexts.child c).1 } (⟨p.contexts.nodes.length, d⟩ :: cs) := by
  have hlt := h.callers_lt c hc
  refine h.derive (Contexts.wellFormed_child h.wellFormed hlt) fun n hn hmem => ⟨c, hc, ?_⟩
  rw [Contexts.lineage_append_new _ _ hlt, List.mem_cons] at hmem
  exact hmem.resolve_left hn.ne

theorem cancelNode (h : p.Apart cs) (n : Nat) :
    Apart { p with contexts := p.contexts.cancelNode n } cs where
  wellFormed := Contexts.wellFormed_cancelNode h.wellFormed n
  callers_lt := by
    rw [Contexts.length_cancelNode]
    exact h.callers_lt
  plans_lt := by
    rw [Contexts.length_cancelNode]
    exact h.plans_lt
  tasks_lt := by
    rw [Contexts.length_cancelNode]
    exact h.tasks_lt
  apart t ht c hc := by
    rw [Contexts.lineage_cancelNode]
    exact h.apart t ht c hc

theorem goes (h : p.Apart cs) (hg : Goes p q) : q.Apart cs := by
  have htask : ∀ t ∈ q.tasks, ∃ u ∈ p.tasks, t.context = u.context := by
    intro t ht
    obtain ⟨k, hk⟩ := List.getElem?_of_mem ht
    have hlt : k < p.tasks.length := by
      rw [← length_tasks_passes (.single hg)]
      exact (List.getElem?_eq_some_iff.1 hk).1
    obtain ⟨g, hg⟩ := task_passes (.single hg) (List.getElem?_eq_getElem hlt)
    obtain rfl := Option.some.inj (hk.symm.trans hg)
    exact ⟨_, List.getElem_mem hlt, rfl⟩
  constructor
  · exact wellFormed_of_cancels (.single (cancels_goes hg)) h.wellFormed
  · rw [length_of_cancels (.single (cancels_goes hg))]
    exact h.callers_lt
  · rw [length_of_cancels (.single (cancels_goes hg))]
    exact fun x hx => h.plans_lt x (plans_goes hg x hx)
  · intro t ht
    obtain ⟨u, hu, heq⟩ := htask t ht
    rw [length_of_cancels (.single (cancels_goes hg)), heq]
    exact h.tasks_lt u hu
  · intro t ht c hc
    obtain ⟨u, hu, heq⟩ := htask t ht
    rw [lineage_of_cancels (.single (cancels_goes hg)), heq]
    exact h.apart u hu c hc

theorem passes (h : p.Apart cs) (hq : Passes p q) : q.Apart cs := by
  induction hq with
  | refl => exact h
  | tail _ hg ih => exact ih.goes hg

end Pool.Apart

namespace Readiness

variable {r : Readiness} {h h' : HealthState} {cs : List Context} {parent : Context} {v : Verdict}
  {entries : List Entry} {q : Pool}

/-- The checks of an evaluation are on contexts of their own. -/
theorem apart_launch {p : Pool} (hp : p.Apart cs) (hparent : parent ∈ cs) :
    (r.launch p parent).Apart cs := by
  have hlt := hp.callers_lt parent hparent
  have hlen : p.contexts.nodes.length < (r.launch p parent).contexts.nodes.length := by
    rw [length_launch]
    omega
  have hline : ∀ n < p.contexts.nodes.length,
      (r.launch p parent).contexts.lineage n = p.contexts.lineage n := by
    intro n hn
    rw [launch_eq]
    simp only [Contexts.child]
    rw [List.append_assoc]
    exact Contexts.lineage_append_old _ _ hn
  constructor
  · exact wellFormed_launch hp.wellFormed hlt
  · exact fun c hc => (hp.callers_lt c hc).trans hlen
  · rw [plans_launch]
    exact fun x hx => (hp.plans_lt x hx).trans hlen
  · intro t ht
    obtain ⟨k, hk⟩ := List.getElem?_of_mem ht
    rcases task_launch_cases p parent hk with hold | ⟨i, c, -, hi, rfl⟩
    · exact (hp.tasks_lt t (List.mem_of_getElem? hold)).trans hlen
    · exact lt_length_handed p parent hi
  · intro t ht c hc hmem
    rw [hline _ (hp.callers_lt c hc)] at hmem
    obtain ⟨k, hk⟩ := List.getElem?_of_mem ht
    rcases task_launch_cases p parent hk with hold | ⟨i, d, -, -, rfl⟩
    · exact hp.apart t (List.mem_of_getElem? hold) c hc hmem
    · have hle := length_le_node_handed r p parent i
      have hin : (r.handed p parent i).node ≤ c.node := Contexts.le_of_mem_lineage hmem
      have hcaller := hp.callers_lt c hc
      omega

/-- However an evaluation has ended, its pool is one that its start leads to, with the context of the
evaluation cancelled. -/
theorem passes_of_ends (he : r.Ends parent h v h' entries) :
    ∃ q, Passes (r.launch h.pool parent) q ∧ h'.pool = left h q := by
  cases he with
  | concluded hq _ => exact ⟨_, hq, rfl⟩
  | dropped hq => exact ⟨_, hq, rfl⟩

theorem apart_of_ends (hp : h.pool.Apart cs) (hparent : parent ∈ cs)
    (he : r.Ends parent h v h' entries) : h'.pool.Apart cs := by
  obtain ⟨q, hq, heq⟩ := passes_of_ends he
  rw [heq]
  exact ((apart_launch hp hparent).passes hq).cancelNode _

/-- What `Readiness.evaluate` does, in terms of the pool in which its run ends. -/
theorem evaluate_eq (r : Readiness) (parent : Context) (limit : Option Time) (h : HealthState) :
    r.evaluate parent limit h =
      let q := (r.launch h.pool parent).run (·.hasEndedFrom h.pool.tasks.length) limit
      let told := r.conclude h.metrics (q.tasks.drop h.pool.tasks.length)
      if q.hasEndedFrom h.pool.tasks.length = true then (told.1, ⟨left h q, told.2.1⟩, told.2.2)
      else (.abandoned, ⟨left h q, h.metrics⟩, []) := by
  unfold evaluate launch
  rw [derive_eq]
  rfl

theorem verdict_eq (r : Readiness) (parent : Context) (limit : Option Time) (h : HealthState) :
    (r.evaluate parent limit h).1 =
      if ((r.launch h.pool parent).run (·.hasEndedFrom h.pool.tasks.length) limit).hasEndedFrom
          h.pool.tasks.length = true then
        (r.conclude h.metrics (((r.launch h.pool parent).run
          (·.hasEndedFrom h.pool.tasks.length) limit).tasks.drop h.pool.tasks.length)).1
      else .abandoned := by
  rw [evaluate_eq]
  dsimp only
  split <;> rfl

/-- `Readiness.evaluate` is one of the ways in which an evaluation may end. -/
theorem ends_evaluate (r : Readiness) (parent : Context) (limit : Option Time) (h : HealthState) :
    r.Ends parent h (r.evaluate parent limit h).1 (r.evaluate parent limit h).2.1
      (r.evaluate parent limit h).2.2 := by
  have hq := run_passes (·.hasEndedFrom h.pool.tasks.length) limit (r.launch h.pool parent)
  rw [evaluate_eq]
  dsimp only
  split
  · rename_i hend
    exact .concluded hq hend
  · exact .dropped hq

end Readiness

/-- **In every history no check can cancel a context that a caller has in hand.** -/
theorem apart_of_served {h : HealthState} {cs : List Context} (hs : Served h cs) :
    h.pool.Apart cs := by
  induction hs with
  | start now =>
    refine ⟨Contexts.wellFormed_empty, ?_, ?_, ?_, ?_⟩ <;> simp
  | @background h cs _ ih =>
    refine ih.derive (Contexts.wellFormed_background ih.wellFormed) fun n hn hmem => ?_
    rw [Contexts.lineage_append_root, List.mem_singleton] at hmem
    exact absurd hmem hn.ne
  | child _ hc ih => exact ih.child hc _
  | withTimeout _ hc budget ih => exact ih.child hc _
  | cancel _ hc ih => exact ih.cancelNode _
  | @plan h cs c _ hc time ih =>
    refine ⟨ih.wellFormed, ih.callers_lt, fun x hx => ?_, ih.tasks_lt, ih.apart⟩
    rcases List.mem_append.1 hx with hx | hx
    · exact ih.plans_lt x hx
    · rw [List.mem_singleton.1 hx]
      exact ih.callers_lt c hc
  | goes _ hg ih => exact ih.goes hg
  | evaluated _ hc he ih => exact Readiness.apart_of_ends ih hc he

/-! ## The contexts of its checks -/

/-- Who waits for the end of a cancelled context goes on with that, unless what else it waits for has come. -/
theorem Task.step?_of_canceled {t : Task} {ds : Contexts} {now : Time} {d : Option Time} {w : Bool}
    {onDue : Behaviour} {onEnd : ContextError → Behaviour}
    (hp : t.progress = .running (.race d w onDue onEnd)) (hd : ∀ x ∈ d, now < x)
    (hc : ds.isCanceled t.context.node = true) :
    t.step? ds now = some { contexts := ds, progress := .running (onEnd .canceled) } := by
  have hawaited : ds.awaited? t.context now = some .canceled := by
    rw [Contexts.awaited?, hc, if_pos rfl]
  rw [Task.step?, hp]
  simp only [Task.any_le_eq_false_iff.2 hd, hawaited]
  rfl

namespace Readiness

variable {r : Readiness} {h h' : HealthState} {cs : List Context} {parent : Context} {v : Verdict}
  {entries : List Entry} {q : Pool}

/-- **However an evaluation ends, the contexts of its checks are cancelled**, and stay so. -/
theorem isCanceled_of_ends (hp : h.pool.Apart cs) (hparent : parent ∈ cs)
    (he : r.Ends parent h v h' entries) (hq : Passes h'.pool q) {i : Nat} {c : Checker}
    (hi : r.checkers[i]? = some c) :
    q.contexts.isCanceled (r.handed h.pool parent i).node = true := by
  have hlt := hp.callers_lt parent hparent
  have hwf := wellFormed_launch (r := r) hp.wellFormed hlt
  obtain ⟨q₀, hq₀, heq⟩ := passes_of_ends he
  have hwf₀ := wellFormed_of_cancels (cancels_passes hq₀) hwf
  have hleft : h'.pool.contexts.isCanceled (r.handed h.pool parent i).node = true := by
    rw [heq]
    refine (Contexts.isCanceled_cancelNode hwf₀ _ _).2 (Or.inr ⟨?_, ?_⟩)
    · rw [length_of_cancels (cancels_passes hq₀)]
      exact lt_length_handed h.pool parent hi
    · rw [lineage_of_cancels (cancels_passes hq₀)]
      exact (mem_lineage_handed hp.wellFormed hlt hi).2 (Or.inr (Or.inl rfl))
  exact isCanceled_of_cancels (cancels_passes hq) (apart_of_ends hp hparent he).wellFormed hleft

/-- The checks of an evaluation keep the contexts that they were handed. -/
theorem context_of_ends (he : r.Ends parent h v h' entries) (hq : Passes h'.pool q) {k : Nat}
    {t : Task} (hk : h.pool.tasks.length ≤ k) (ht : q.tasks[k]? = some t) :
    ∃ i c, r.checkers[i]? = some c ∧ t.context = r.handed h.pool parent i := by
  obtain ⟨q₀, hq₀, heq⟩ := passes_of_ends he
  have hlen : q.tasks.length = (r.launch h.pool parent).tasks.length := by
    rw [length_tasks_passes hq, heq, ← length_tasks_passes hq₀]
    rfl
  have hlt : k < (r.launch h.pool parent).tasks.length := by
    rw [← hlen]
    exact (List.getElem?_eq_some_iff.1 ht).1
  have hstart := List.getElem?_eq_getElem hlt
  obtain ⟨g, hg⟩ := task_passes hq₀ hstart
  obtain ⟨g', hg'⟩ := task_passes (p := h'.pool) hq (by rw [heq]; exact hg)
  obtain rfl := Option.some.inj (ht.symm.trans hg')
  rcases task_launch_cases h.pool parent hstart with hold | ⟨i, c, -, hi, hc⟩
  · exact absurd (List.getElem?_eq_some_iff.1 hold).1 (Nat.not_lt.2 hk)
  · exact ⟨i, c, hi, congrArg Task.context hc⟩

/-! ## What was there before -/

/-- **What was there before an evaluation goes on as if there were no evaluation.** -/
theorem mirrors_before {p : Pool} (hp : p.Apart cs) (hparent : parent ∈ cs) :
    Mirrors (· < p.contexts.nodes.length) 0 (r.launch p parent) p where
  now_eq := (now_launch r p parent).symm
  plans_eq := (plans_launch r p parent).symm
  agree := by
    have hlt := hp.callers_lt parent hparent
    have hnodes : (r.launch p parent).contexts = ⟨p.contexts.nodes ++
        (⟨some parent.node, p.contexts.isCanceled parent.node⟩ :: r.checkNodes p parent)⟩ := by
      rw [launch_eq]
      simp [Contexts.child]
    refine ⟨wellFormed_launch hp.wellFormed hlt, hp.wellFormed, fun hn => ?_, id, fun hn => ?_,
      fun hn => ?_⟩
    · rw [length_launch]
      omega
    · rw [hnodes, Contexts.lineage_append_old _ _ hn]
    · rw [hnodes, Contexts.isCanceled_append_old _ _ hn]
  window := by
    rw [launch_eq, List.drop_zero, List.take_left]
  inside := hp.tasks_lt
  outside := by
    intro k t hk hout n hn hmem
    rcases task_launch_cases p parent hk with hold | ⟨i, c, -, -, rfl⟩
    · have := (List.getElem?_eq_some_iff.1 hold).1
      omega
    · have hle := length_le_node_handed r p parent i
      have hin : (r.handed p parent i).node ≤ n := Contexts.le_of_mem_lineage hmem
      omega

/-- That the context of an evaluation is cancelled is nothing to what was there before. -/
theorem mirrors_left {m : Nat} {part : Pool}
    (hm : Mirrors (· < h.pool.contexts.nodes.length) m q part) :
    Mirrors (· < h.pool.contexts.nodes.length) m (left h q) part where
  now_eq := hm.now_eq
  plans_eq := hm.plans_eq
  agree := hm.agree.cancelNode_left fun n hn hmem => by
    have := Contexts.le_of_mem_lineage hmem
    omega
  window := hm.window
  inside := hm.inside
  outside hk hout n hn := by
    show _ ∉ (q.contexts.cancelNode _).lineage n
    rw [Contexts.lineage_cancelNode]
    exact hm.outside hk hout n hn

end Readiness

/-! ## What is left over from before -/

/-- A service that has just been set up in the same surroundings: nothing is left over from earlier
evaluations, and nothing has been counted. -/
def HealthState.fresh (h : HealthState) : HealthState where
  pool := { now := h.pool.now, contexts := h.pool.contexts, plans := h.pool.plans }

namespace Readiness

variable {r : Readiness} {h h' : HealthState} {cs : List Context} {parent : Context} {v : Verdict}
  {entries : List Entry} {q : Pool}

/-- The nodes of the contexts that an evaluation hands to its checks. -/
def Handed (r : Readiness) (p : Pool) (parent : Context) (n : Nat) : Prop :=
  ∃ i c, r.checkers[i]? = some c ∧ n = (r.handed p parent i).node

theorem tasks_launch_fresh (r : Readiness) (h : HealthState) (parent : Context) :
    (r.launch h.fresh.pool parent).tasks =
      (r.launch h.pool parent).tasks.drop h.pool.tasks.length := by
  rw [launch_eq, launch_eq, List.drop_left]
  rfl

/-- **An evaluation goes on as if nothing were left over from earlier ones.** -/
theorem mirrors_fresh (hp : h.pool.Apart cs) (hparent : parent ∈ cs) :
    Mirrors (r.Handed h.pool parent) h.pool.tasks.length (r.launch h.pool parent)
      (r.launch h.fresh.pool parent) where
  now_eq := by rw [now_launch, now_launch]; rfl
  plans_eq := by rw [plans_launch, plans_launch]; rfl
  agree := by
    have hlt := hp.callers_lt parent hparent
    have hsame : (r.launch h.fresh.pool parent).contexts = (r.launch h.pool parent).contexts := by
      rw [launch_eq, launch_eq]
      rfl
    rw [hsame]
    refine Contexts.Agree.refl (wellFormed_launch hp.wellFormed hlt) ?_
    rintro _ ⟨i, c, hi, rfl⟩
    exact lt_length_handed h.pool parent hi
  window := by
    rw [tasks_launch_fresh, List.take_of_length_le le_rfl]
  inside := by
    intro t ht
    obtain ⟨k, hk⟩ := List.getElem?_of_mem ht
    rcases task_launch_cases h.fresh.pool parent hk with hold | ⟨i, c, -, hi, rfl⟩
    · cases hold
    · exact ⟨i, c, hi, rfl⟩
  outside := by
    rintro k t hk hout _ ⟨i, c, hi, rfl⟩ hmem
    rcases task_launch_cases h.pool parent hk with hold | ⟨j, d, rfl, hj, -⟩
    · have hlt := hp.tasks_lt t (List.mem_of_getElem? hold)
      have hle := length_le_node_handed r h.pool parent i
      rcases (mem_lineage_handed hp.wellFormed (hp.callers_lt parent hparent) hi).1 hmem with
        heq | heq | hin
      · omega
      · omega
      · exact hp.apart t (List.mem_of_getElem? hold) parent hparent hin
    · -- no task comes after those of the evaluation
      have hlen : (r.launch h.fresh.pool parent).tasks.length = r.checkers.length := by
        rw [launch_eq]
        simp [HealthState.fresh]
      have hin := (List.getElem?_eq_some_iff.1 hj).1
      omega

/-- The verdict depends on nothing that was counted before. -/
theorem conclude_congr (r : Readiness) (m m' : Metrics) (ts : List Task) :
    (r.conclude m ts).1 = (r.conclude m' ts).1 ∧ (r.conclude m ts).2.2 = (r.conclude m' ts).2.2 := by
  unfold conclude
  dsimp only
  cases (collect ts).2 <;> exact ⟨rfl, rfl⟩

/-- What is kept of a pool after the start of an evaluation are the tasks of that. -/
theorem drop_of_mirrors (hq : Passes (r.launch h.pool parent) q) {p' : Pool}
    (hp' : Passes (r.launch h.fresh.pool parent) p')
    (hm : Mirrors (r.Handed h.pool parent) h.pool.tasks.length q p') :
    q.tasks.drop h.pool.tasks.length = p'.tasks := by
  rw [hm.window, List.take_of_length_le]
  rw [List.length_drop, length_tasks_passes hq, length_tasks_passes hp', tasks_launch_fresh,
    List.length_drop]

/-- **How an evaluation may end is how a fresh one may end at that time.** -/
theorem ends_fresh_iff (hp : h.pool.Apart cs) (hparent : parent ∈ cs) {now : Time} :
    (∃ h', r.Ends parent h v h' entries ∧ h'.pool.now = now) ↔
      ∃ h', r.Ends parent h.fresh v h' entries ∧ h'.pool.now = now := by
  have hstart := mirrors_fresh (r := r) hp hparent
  constructor
  · rintro ⟨h', he, rfl⟩
    cases he with
    | @concluded q hq hend =>
      obtain ⟨p', hp', hm⟩ := hstart.passes hq
      have hdrop := drop_of_mirrors hq hp' hm
      have hend' : p'.hasEndedFrom h.fresh.pool.tasks.length = true := by
        rw [hasEndedFrom, hdrop] at hend
        exact hend
      obtain ⟨hv, hentries⟩ := r.conclude_congr h.metrics h.fresh.metrics p'.tasks
      have hfresh := Ends.concluded hp' hend'
      rw [hdrop, hv, hentries]
      exact ⟨_, hfresh, hm.now_eq⟩
    | dropped hq =>
      obtain ⟨p', hp', hm⟩ := hstart.passes hq
      exact ⟨_, .dropped hp', hm.now_eq⟩
  · rintro ⟨h', he, rfl⟩
    cases he with
    | @concluded p' hp' hend =>
      obtain ⟨q, hq, hm⟩ := hstart.passes_back hp'
      have hdrop := drop_of_mirrors hq hp' hm
      have hend' : q.hasEndedFrom h.pool.tasks.length = true := by
        rw [hasEndedFrom, hdrop]
        exact hend
      obtain ⟨hv, hentries⟩ := r.conclude_congr h.metrics h.fresh.metrics p'.tasks
      have hconcluded := Ends.concluded hq hend'
      rw [hdrop, hv, hentries] at hconcluded
      exact ⟨_, hconcluded, hm.now_eq.symm⟩
    | dropped hp' =>
      obtain ⟨q, hq, hm⟩ := hstart.passes_back hp'
      exact ⟨_, .dropped hq, hm.now_eq.symm⟩

/-- The verdict of `Readiness.evaluate`, if nobody drops it, is the one that a fresh service gives. -/
theorem evaluate_fresh (hp : h.pool.Apart cs) (hparent : parent ∈ cs) :
    (r.evaluate parent none h).1 = (r.evaluate parent none h.fresh).1 := by
  have hlen : (r.launch h.pool parent).tasks.length =
      h.pool.tasks.length + (r.launch h.fresh.pool parent).tasks.length := by
    rw [launch_eq, launch_eq]
    simp [HealthState.fresh]
  obtain ⟨hsame, htasks⟩ := (mirrors_fresh (r := r) hp hparent).run hlen
  have hsame : hasEndedFrom _ h.pool.tasks.length = hasEndedFrom _ 0 := hsame
  have hzero : h.fresh.pool.tasks.length = 0 := rfl
  rw [verdict_eq, verdict_eq, hzero, hsame]
  split
  · rename_i hend
    rw [(htasks hend).1, List.drop_zero]
    exact (r.conclude_congr _ _ _).1
  · rfl

/-! ## All endings together -/

/-- What was there in state `h` is the same in `p` as in `q`, which may hold more: the clock and the
plans, the tasks, and which of the contexts are cancelled. -/
structure Unaffected (h : HealthState) (p q : Pool) : Prop where
  now_eq : p.now = q.now
  plans_eq : p.plans = q.plans
  tasks_eq : p.tasks = q.tasks.take h.pool.tasks.length
  canceled_eq : ∀ n < h.pool.contexts.nodes.length, p.contexts.isCanceled n = q.contexts.isCanceled n

theorem unaffected_of_mirrors {p : Pool} (hp : Passes h.pool p)
    (hm : Mirrors (· < h.pool.contexts.nodes.length) 0 q p) : Unaffected h p (left h q) where
  now_eq := hm.now_eq
  plans_eq := hm.plans_eq
  tasks_eq := by
    rw [hm.window, List.drop_zero, length_tasks_passes hp]
    rfl
  canceled_eq n hn := (mirrors_left hm).agree.canceled_eq hn

/-- However an evaluation ends, what was there before is as it might be without it. -/
theorem unaffected_of_ends (hp : h.pool.Apart cs) (hparent : parent ∈ cs)
    (he : r.Ends parent h v h' entries) : ∃ p, Passes h.pool p ∧ Unaffected h p h'.pool := by
  obtain ⟨q, hq, heq⟩ := passes_of_ends he
  obtain ⟨p, hpass, hm⟩ := (mirrors_before (r := r) hp hparent).passes hq
  rw [heq]
  exact ⟨p, hpass, unaffected_of_mirrors hpass hm⟩

/-- What is logged during an evaluation concerns single checks, in no span. -/
theorem checks_log_of_ends (he : r.Ends parent h v h' entries) :
    ∃ es, h'.pool.log = h.pool.log ++ es ∧ ∀ e ∈ es, e.spans = [] ∧ e.event.OfCheck := by
  obtain ⟨q, hq, heq⟩ := passes_of_ends he
  obtain ⟨es, hlog, hes⟩ := log_passes hq
  refine ⟨es, ?_, hes⟩
  rw [launch_eq] at hlog
  rw [heq]
  exact hlog

theorem log_of_ends (he : r.Ends parent h v h' entries) :
    ∃ es, h'.pool.log = h.pool.log ++ es ∧ ∀ e ∈ es, ¬ e.event.OfReadiness := by
  obtain ⟨es, hlog, hes⟩ := checks_log_of_ends he
  exact ⟨es, hlog, fun e he => (hes e he).2.not_ofReadiness⟩

/-- **An evaluation leaves no trace.**  In every history of a service, and for every evaluation that a
caller starts with any checkers, however that ends:

* the contexts that it handed to its checks are cancelled from then on, and a check that waits for the
  end of one goes on with that, unless what else it waits for has come;
* the caller's context and everything else from before is as it might be without the evaluation;
* if it was dropped, it has changed no metric and logged no readiness event, and its checks never log
  any.

Conversely, what might be without an evaluation might also be with one that is dropped.  And what is
left over from earlier evaluations is nothing to this one: it may end in the same ways, at the same
times, as one of a service that has just been set up, and of `Readiness.evaluate`, which is one of
these, the verdict is the same. -/
theorem leaves_no_trace {h : HealthState} {cs : List Context} (hs : Served h cs) {parent : Context}
    (hparent : parent ∈ cs) (r : Readiness) :
    (∀ v h' entries, r.Ends parent h v h' entries →
      (∀ i < r.checkers.length, ∀ q, Passes h'.pool q →
        q.contexts.error? (r.handed h.pool parent i) q.now = some .canceled) ∧
      (∀ q k t d w onDue onEnd, Passes h'.pool q → h.pool.tasks.length ≤ k →
        q.tasks[k]? = some t → t.progress = .running (.race d w onDue onEnd) →
        (∀ x ∈ d, q.now < x) →
        ∃ s, t.step? q.contexts q.now = some s ∧ s.progress = .running (onEnd .canceled)) ∧
      (∃ p, Passes h.pool p ∧ Unaffected h p h'.pool) ∧
      (v = .abandoned → h'.metrics = h.metrics ∧ entries = []) ∧
      ∃ es, h'.pool.log = h.pool.log ++ es ∧ ∀ e ∈ es, ¬ e.event.OfReadiness) ∧
    (∀ p, Passes h.pool p →
      ∃ h', r.Ends parent h .abandoned h' [] ∧ Unaffected h p h'.pool) ∧
    (∀ v entries now, (∃ h', r.Ends parent h v h' entries ∧ h'.pool.now = now) ↔
      ∃ h', r.Ends parent h.fresh v h' entries ∧ h'.pool.now = now) ∧
    (r.evaluate parent none h).1 = (r.evaluate parent none h.fresh).1 ∧
    ∀ limit, r.Ends parent h (r.evaluate parent limit h).1 (r.evaluate parent limit h).2.1
      (r.evaluate parent limit h).2.2 := by
  have hp := apart_of_served hs
  have hbefore := mirrors_before (r := r) hp hparent
  refine ⟨fun v h' entries he => ⟨?_, ?_, ?_, ?_, log_of_ends he⟩, fun p hpass => ?_,
    fun v entries now => ends_fresh_iff hp hparent, evaluate_fresh hp hparent,
    fun limit => ends_evaluate r parent limit h⟩
  · intro i hi q hq
    rw [Contexts.error?_eq_canceled_iff]
    exact isCanceled_of_ends hp hparent he hq (List.getElem?_eq_getElem hi)
  · intro q k t d w onDue onEnd hq hk ht hprogress hd
    obtain ⟨i, c, hi, hctx⟩ := context_of_ends he hq hk ht
    have hc := isCanceled_of_ends hp hparent he hq hi
    rw [← hctx] at hc
    exact ⟨_, Task.step?_of_canceled hprogress hd hc, rfl⟩
  · exact unaffected_of_ends hp hparent he
  · rintro rfl
    generalize hv : Verdict.abandoned = v at he
    cases he with
    | concluded hq hend =>
      unfold conclude at hv
      dsimp only at hv
      split at hv <;> cases hv
    | dropped => exact ⟨rfl, rfl⟩
  · obtain ⟨q, hq, hm⟩ := hbefore.passes_back hpass
    exact ⟨_, .dropped hq, unaffected_of_mirrors hpass hm⟩

/-- A check of a dropped evaluation that sleeps on makes no difference to the next evaluation. -/
theorem evaluate_beside_leftover :
    let slow : Readiness := { checkers := [⟨"slow", .sleepUntil 5000000000 (.finish ⟨.ok, none⟩)⟩] }
    let r : Readiness := { checkers := [⟨"db", .finish ⟨.ok, none⟩⟩] }
    ∃ h h' parent, Served h [parent] ∧ slow.Ends parent h .abandoned h' [] ∧ Served h' [parent] ∧
      (∃ t ∈ h'.pool.tasks, t.hasEnded = false) ∧
      (r.evaluate parent none h').1 = (r.evaluate parent none h'.fresh).1 := by
  intro slow r
  let h : HealthState := { pool := { contexts := ({} : Contexts).background.1 } }
  have hserved : Served h [⟨0, none⟩] := .background (.start 0)
  have hdropped : slow.Ends ⟨0, none⟩ h .abandoned
      ⟨left h (slow.launch h.pool ⟨0, none⟩), h.metrics⟩ [] :=
    .dropped .refl
  have hserved' := hserved.evaluated List.mem_cons_self hdropped
  refine ⟨_, _, _, hserved, hdropped, hserved', ⟨_, List.mem_cons_self, rfl⟩, ?_⟩
  exact (leaves_no_trace hserved' List.mem_cons_self r).2.2.2.1

end Readiness
end HealthService
