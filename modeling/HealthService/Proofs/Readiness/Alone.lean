import HealthService.Proofs.Check.Delay
import HealthService.Proofs.Pool.Tracking
import HealthService.Proofs.Readiness.Launch

/-!
# Every check as if it were alone

An evaluation runs its checks side by side, on one clock and below one context.  What each of them
comes to is nevertheless its own affair: it is what `runCheck` makes of that check by itself
(`Readiness.alone`), in which the other checkers do not occur.

* `leads_launch` — the course of a check in an evaluation is the course of a task in which neither
  its place nor the other checkers appear (`Readiness.single`).
* `progress_of_final` — **when an evaluation is over, each check has come to what it comes to
  alone**, in the order of the checkers.
* `evaluate_eq_alone` — **a readiness response lists the results that the checks have alone**,
  whatever the order in which they run.
-/

namespace HealthService

open Pool

/-- The result of a check that has one. -/
def Progress.result? : Progress → Option CheckResult
  | .returned result _ => some result
  | _ => none

namespace Pool

/-- A pool in which somebody may start an evaluation: the caller's context and all that is going on
or planned belongs to contexts that are there, and no check from before cancels the caller's. -/
structure Hosts (p : Pool) (parent : Context) : Prop where
  wellFormed : p.contexts.WellFormed
  parent_lt : parent.node < p.contexts.nodes.length
  plans_lt : ∀ x ∈ p.plans, x.node < p.contexts.nodes.length
  tasks_lt : ∀ t ∈ p.tasks, t.context.node < p.contexts.nodes.length
  others : ∀ t ∈ p.tasks, t.context.node ∈ p.contexts.lineage parent.node →
    t.Always Behaviour.KeepsContext

/-- Somebody may start an evaluation in a context that is all there is. -/
theorem hosts_background {p : Pool} (hc : p.contexts = ({} : Contexts).background.1)
    (htasks : p.tasks = []) (hplans : ∀ x ∈ p.plans, x.node = 0) (deadline : Option Time) :
    p.Hosts ⟨0, deadline⟩ where
  wellFormed := by
    rw [hc]
    exact Contexts.wellFormed_background Contexts.wellFormed_empty
  parent_lt := by rw [hc]; exact Nat.one_pos
  plans_lt := fun x hx => by
    rw [hplans x hx, hc]
    exact Nat.one_pos
  tasks_lt := fun t ht => by
    rw [htasks] at ht
    cases ht
  others := fun t ht => by
    rw [htasks] at ht
    cases ht

end Pool

namespace Readiness

variable {r : Readiness} {p q : Pool} {parent : Context} {i : Nat} {c : Checker} {free : Bool}
  {g : Progress}

/-! ## A check of an evaluation by itself -/

/-- A check of an evaluation, by itself. -/
def single (r : Readiness) (p : Pool) (parent : Context) (c : Checker) : Task :=
  c.begun ⟨0, r.budgets.checkDeadline p.now parent.deadline⟩ p.now

/-- What a check comes to that is run alone, in a context that is derived for an evaluation. -/
def alone (r : Readiness) (p : Pool) (parent : Context) (c : Checker) : Progress :=
  ((r.derive p parent).1.runCheck (r.derive p parent).2 r.budgets.checkBound c).2

/-- No other check cancels the context of the check at some place: the checks have contexts of their
own, or none of the others cancels the one that they share. -/
def Spared (r : Readiness) (i : Nat) : Prop :=
  r.budgets.checkBound = none → ∀ j d, j ≠ i → r.checkers[j]? = some d →
    d.behaviour.Always Behaviour.KeepsContext

theorem eq_of_node_handed {j : Nat} (hij : (r.handed p parent i).node = (r.handed p parent j).node)
    (hbound : r.budgets.checkBound ≠ none) : i = j := by
  unfold handed at hij
  cases hb : r.budgets.checkBound with
  | none => exact absurd hb hbound
  | some d =>
    simp only [hb] at hij
    omega

theorem length_le_node_handed (r : Readiness) (p : Pool) (parent : Context) (i : Nat) :
    p.contexts.nodes.length ≤ (r.handed p parent i).node := by
  unfold handed
  cases r.budgets.checkBound with
  | none => exact le_rfl
  | some d =>
    show p.contexts.nodes.length ≤ p.contexts.nodes.length + 1 + i
    omega

/-- **A check with a context of its own is shielded**, and so is one that the others spare. -/
theorem shielded_launch (h : p.Hosts parent) (hi : r.checkers[i]? = some c) (hspared : r.Spared i) :
    Shielded (r.launch p parent) (p.tasks.length + i) (c.begun (r.handed p parent i) p.now) where
  wellFormed := wellFormed_launch h.wellFormed h.parent_lt
  task := task_launch p parent hi
  node_lt := lt_length_handed p parent hi
  others := by
    intro k u hk hu hmem
    have hmem' := (mem_lineage_handed h.wellFormed h.parent_lt hi).1 hmem
    rcases task_launch_cases p parent hu with hold | ⟨j, d, rfl, hj, rfl⟩
    · -- a task from before hangs on the caller's chain, if on any part of this one
      have hmemu := List.mem_of_getElem? hold
      have hlt := h.tasks_lt u hmemu
      have hle := length_le_node_handed r p parent i
      refine h.others u hmemu ?_
      rcases hmem' with heq | heq | hin
      · omega
      · omega
      · exact hin
    · have hji : j ≠ i := fun hji => hk (by rw [hji])
      have hle := length_le_node_handed r p parent j
      by_cases hbound : r.budgets.checkBound = none
      · rintro b ⟨⟩
        exact hspared hbound j d hji hj
      · exfalso
        rcases hmem' with heq | heq | hin
        · exact hji (eq_of_node_handed heq hbound)
        · change (r.handed p parent j).node = _ at heq
          unfold handed at heq
          cases hb : r.budgets.checkBound with
          | none => exact hbound hb
          | some d =>
            simp only [hb] at heq
            omega
        · have hnode : (r.handed p parent j).node ≤ parent.node := Contexts.le_of_mem_lineage hin
          have hlt := h.parent_lt
          omega

/-- A check starts with the outlook of the caller. -/
theorem outlook_launch (h : p.Hosts parent) (hi : r.checkers[i]? = some c) :
    (r.launch p parent).outlook (r.handed p parent i).node = p.outlook parent.node := by
  have hplans : (r.launch p parent).planned (r.handed p parent i).node = p.planned parent.node := by
    unfold planned
    rw [plans_launch]
    congr 2
    refine List.filter_congr fun x hx => decide_eq_decide.2 ?_
    have hlt := h.plans_lt x hx
    have hle := length_le_node_handed r p parent i
    rw [mem_lineage_handed h.wellFormed h.parent_lt hi]
    constructor
    · rintro (heq | heq | hin)
      · omega
      · omega
      · exact hin
    · exact fun hin => Or.inr (Or.inr hin)
  unfold outlook
  rw [hplans, isCanceled_handed p parent hi]

/-- **The course of a check in an evaluation has nothing to do with its place and the others.** -/
theorem leads_launch (h : p.Hosts parent) (hi : r.checkers[i]? = some c) :
    Leads free (r.launch p parent) (c.begun (r.handed p parent i) p.now) g ↔
      Course free (p.outlook parent.node).2 p.now (p.outlook parent.node).1
        (r.single p parent c) g := by
  unfold Leads
  rw [show (c.begun (r.handed p parent i) p.now).context.node = (r.handed p parent i).node from rfl,
    outlook_launch h hi, now_launch]
  rfl

/-- **What a check comes to alone is the end of its course.** -/
theorem course_alone (h : p.Hosts parent) (r : Readiness) (c : Checker) :
    Course false (p.outlook parent.node).2 p.now (p.outlook parent.node).1 (r.single p parent c)
      (r.alone p parent c) := by
  -- a check alone is an evaluation of one checker
  let r' : Readiness := { r with checkers := [c] }
  have hi : r'.checkers[0]? = some c := rfl
  have htasks : (r.derive p parent).1.tasks.length = p.tasks.length := by rw [derive_eq]
  have hshield := shielded_launch h hi fun _ j d hj hd => by
    rw [List.getElem?_singleton, if_neg hj] at hd
    cases hd
  obtain ⟨hreach, hfinal⟩ := run_reaches (·.hasEndedFrom p.tasks.length) (r'.launch p parent)
  obtain ⟨g, hg, hlead⟩ := leads_of_final hshield hreach (hfinal.imp (fun hend u hu =>
    hasEnded_of_hasEndedFrom hend (Nat.le_add_right _ _) hu) id)
  have halone : r.alone p parent c = g := by
    have hrun : ((r.derive p parent).1.start (r.derive p parent).2 r.budgets.checkBound c).run
        (·.hasEndedFrom p.tasks.length) none =
        (r'.launch p parent).run (·.hasEndedFrom p.tasks.length) none := rfl
    simp only [alone, runCheck, htasks, hrun]
    rw [Nat.add_zero] at hg
    rw [hg]
  rw [halone]
  exact (leads_launch h hi).1 hlead

/-- **When an evaluation is over, each check has come to what it comes to alone.** -/
theorem progress_of_final (h : p.Hosts parent) (hi : r.checkers[i]? = some c) (hspared : r.Spared i)
    (hclear : free = true →
      Course.Undisturbed (p.outlook parent.node).2 p.now (r.single p parent c))
    (hr : Relation.ReflTransGen (Turns free) (r.launch p parent) q)
    (hfinal : (∀ u, q.tasks[p.tasks.length + i]? = some u → u.hasEnded = true) ∨
      q.step? = none ∧ q.next? = none) :
    ∃ t, q.tasks[p.tasks.length + i]? = some t ∧ t.progress = r.alone p parent c := by
  obtain ⟨g, hg, hlead⟩ := leads_of_final (shielded_launch h hi hspared) hr hfinal
  refine ⟨_, hg, ?_⟩
  have hcourse := (leads_launch h hi).1 hlead
  have hordered : Course false (p.outlook parent.node).2 p.now (p.outlook parent.node).1
      (r.single p parent c) g := by
    cases free with
    | false => exact hcourse
    | true => exact hcourse.orderly rfl fun _ => hclear rfl
  exact hordered.unique (course_alone h r c)

/-! ## The verdict -/

/-- The verdict depends on nothing but what the checks have come to. -/
theorem collect_congr {ts us : List Task} (h : ts.map Task.progress = us.map Task.progress) :
    collect ts = collect us := by
  induction ts generalizing us with
  | nil =>
    obtain rfl : us = [] := by simpa using h.symm
    rfl
  | cons t ts ih =>
    obtain ⟨u, us, rfl⟩ : ∃ u us', us = u :: us' := by
      cases us with
      | nil => simp at h
      | cons u us => exact ⟨u, us, rfl⟩
    rw [List.map_cons, List.map_cons, List.cons.injEq] at h
    rw [collect, collect, h.1, ih h.2]

/-- Nobody has panicked iff all checks have a result. -/
theorem collect_eq_none_iff {ts : List Task} :
    (collect ts).2 = none ↔ ∀ t ∈ ts, t.progress.result? ≠ none := by
  induction ts with
  | nil => simp [collect]
  | cons t ts ih =>
    rw [List.forall_mem_cons, collect]
    cases hp : t.progress with
    | returned result elapsed => simp [Progress.result?, ih]
    | running b => simp [Progress.result?]
    | panicked payload => simp [Progress.result?]

/-- If nobody has panicked, the results of all checks are listed in their order. -/
theorem collect_results {ts : List Task} (h : (collect ts).2 = none) :
    (collect ts).1.map (fun x => some x.1) = ts.map fun t => t.progress.result? := by
  induction ts with
  | nil => rfl
  | cons t ts ih =>
    rw [collect] at h ⊢
    cases hp : t.progress with
    | returned result elapsed =>
      rw [hp] at h
      rw [List.map_cons, List.map_cons, hp, ← ih h]
      rfl
    | running b => simp [hp] at h
    | panicked payload => simp [hp] at h

/-- If all checks have results, they are listed, and the response is in order iff all of them are. -/
theorem conclude_of_results (r : Readiness) (m : Metrics) {ts : List Task}
    (h : ∀ t ∈ ts, t.progress.result? ≠ none) :
    ∃ x, (r.conclude m ts).1 = .response x ∧
      x.checks.map some = ts.map (fun t => t.progress.result?) ∧
      (x.status = .ok ↔ ∀ y ∈ x.checks, y.status = .ok) := by
  have hpanic := collect_eq_none_iff.2 h
  refine ⟨r.respond ((collect ts).1.map Prod.fst), ?_, ?_, ?_⟩
  · simp only [conclude, hpanic]
  · rw [← collect_results hpanic, respond, List.map_map]
    rfl
  · rw [respond, Status.aggregate_eq_ok_iff]
    exact List.forall_mem_map

/-- An evaluation is over when all its checks have come to results. -/
theorem hasEndedFrom_of_results {first : Nat}
    (h : ∀ t ∈ q.tasks.drop first, t.progress.result? ≠ none) : q.hasEndedFrom first = true := by
  refine List.all_eq_true.2 fun t ht => ?_
  have hresult := h t ht
  cases hp : t.progress with
  | running b => exact absurd (by rw [hp]; rfl) hresult
  | _ => simp [Task.hasEnded, hp]

/-- An evaluation whose run ends with all checks is concluded on them. -/
theorem evaluate_of_ended {h : HealthState} (hend : ((r.launch h.pool parent).run
    (·.hasEndedFrom h.pool.tasks.length) none).hasEndedFrom h.pool.tasks.length = true) :
    (r.evaluate parent none h).1 = (r.conclude h.metrics (((r.launch h.pool parent).run
      (·.hasEndedFrom h.pool.tasks.length) none).tasks.drop h.pool.tasks.length)).1 := by
  unfold launch at hend ⊢
  unfold evaluate
  rw [derive_eq] at hend ⊢
  simp only [hend, if_true]

theorem turns_of_reaches {p : Pool} (h : Reaches p q) :
    Relation.ReflTransGen (Turns true) p q := by
  induction h with
  | refl => exact .refl
  | tail _ hm ih => exact ih.tail ⟨hm, fun hf => by cases hf⟩

end Readiness
end HealthService
