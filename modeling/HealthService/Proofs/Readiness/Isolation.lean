import HealthService.Proofs.Readiness.Alone
import HealthService.Proofs.Readiness.Verdict

/-!
# What a check can do to the others

The only thing that a check can do to its surroundings is to cancel the context that it was handed.
With a budget for the single check that context is its own, and nobody else notices.  Without one
all checks of an evaluation are handed the evaluation's context, so that whoever cancels it cancels
it for all of them.  Contexts from before the evaluation are out of reach in either case.

* `mayEnd_iff_course` — what a check may come to in an evaluation, under any order of the moves, is
  what its course by itself may come to.
* `isolated` — **with a budget for the single check no check makes a difference to another one**,
  and with or without it none cancels the caller.
* `canceled_by_sibling` — without one, a check that cancels its context costs another one its
  result.
-/

namespace HealthService

open Pool

namespace Readiness

variable {r : Readiness} {p q : Pool} {parent : Context} {i : Nat} {c : Checker} {g : Progress}

/-- The evaluation in which one checker does something else instead. -/
def instead (r : Readiness) (i : Nat) (b : Behaviour) : Readiness :=
  { r with checkers := r.checkers.modify i fun c => { c with behaviour := b } }

theorem getElem?_instead {j : Nat} (hj : j ≠ i) (b : Behaviour) :
    (r.instead i b).checkers[j]? = r.checkers[j]? := by
  rw [instead, List.getElem?_modify]
  cases r.checkers[j]? with
  | none => rfl
  | some c => simp [hj.symm]

/-! ## What a check may come to -/

/-- What the check at some place may come to in an evaluation, with the moves in any order. -/
def MayEnd (r : Readiness) (p : Pool) (parent : Context) (i : Nat) (g : Progress) : Prop :=
  ∃ q t, Reaches (r.launch p parent) q ∧ q.tasks[p.tasks.length + i]? = some t ∧ t.progress = g

/-- **What a check may come to in an evaluation is what its course by itself may come to.** -/
theorem mayEnd_iff_course (h : p.Hosts parent) (hi : r.checkers[i]? = some c)
    (hspared : r.Spared i) (hend : ∀ b, g ≠ .running b) :
    r.MayEnd p parent i g ↔
      Course true (p.outlook parent.node).2 p.now (p.outlook parent.node).1
        (r.single p parent c) g := by
  have hshield := shielded_launch h hi hspared
  rw [← leads_launch h hi]
  constructor
  · rintro ⟨q, t, hq, ht, rfl⟩
    obtain ⟨g, hg, hlead⟩ := leads_of_final hshield (turns_of_reaches hq) (Or.inl fun u hu => by
      obtain rfl := Option.some.inj (ht.symm.trans hu)
      cases hp : t.progress with
      | running b => exact absurd hp (hend b)
      | _ => simp [Task.hasEnded, hp])
    obtain rfl := Option.some.inj (ht.symm.trans hg)
    exact hlead
  · intro hlead
    obtain ⟨q, hq, ht⟩ := reaches_of_leads hshield hlead hend
    exact ⟨q, _, hq, ht, rfl⟩

/-! ## What a response says -/

/-- An evaluation that responds has seen the results of all its checks. -/
theorem checks_of_response {m : Metrics} {x : ReadyResponse}
    (hx : (r.evaluate parent none ⟨p, m⟩).1 = .response x) :
    ((r.launch p parent).run (·.hasEndedFrom p.tasks.length) none).hasEndedFrom
        p.tasks.length = true ∧
      x.checks.map some = (((r.launch p parent).run (·.hasEndedFrom p.tasks.length) none).tasks.drop
        p.tasks.length).map fun t => t.progress.result? := by
  have hend : ((r.launch p parent).run (·.hasEndedFrom p.tasks.length) none).hasEndedFrom
      p.tasks.length = true := by
    by_contra hno
    unfold launch at hno
    unfold evaluate at hx
    rw [derive_eq] at hno hx
    simp only [if_neg hno] at hx
    cases hx
  refine ⟨hend, ?_⟩
  have hconclude := (evaluate_of_ended (h := ⟨p, m⟩) hend).symm.trans hx
  simp only [conclude] at hconclude
  split at hconclude
  · cases hconclude
  · rename_i hpanic
    obtain rfl := Verdict.response.inj hconclude
    rw [← collect_results hpanic, respond, List.map_map]
    rfl

/-- **A response says of a check that is spared what the check comes to alone.** -/
theorem getElem?_of_response (h : p.Hosts parent) (hi : r.checkers[i]? = some c)
    (hspared : r.Spared i) {m : Metrics} {x : ReadyResponse}
    (hx : (r.evaluate parent none ⟨p, m⟩).1 = .response x) :
    ∃ y, x.checks[i]? = some y ∧ (r.alone p parent c).result? = some y := by
  obtain ⟨hend, hchecks⟩ := checks_of_response hx
  obtain ⟨t, ht, hp⟩ := progress_of_final h hi hspared (fun hf => by cases hf)
    (run_reaches (·.hasEndedFrom p.tasks.length) (r.launch p parent)).1
    (Or.inl fun u hu => hasEnded_of_hasEndedFrom hend (Nat.le_add_right _ _) hu)
  have hat := congrArg (fun l => l[i]?) hchecks
  simp only [List.getElem?_map, List.getElem?_drop, ht, hp, Option.map_some] at hat
  cases hxi : x.checks[i]? with
  | none => simp [hxi] at hat
  | some y =>
    rw [hxi] at hat
    exact ⟨y, rfl, (Option.some.inj hat).symm⟩

/-! ## What a check can do -/

section Cancelling

variable (hp : p.contexts.WellFormed) (hparent : parent.node < p.contexts.nodes.length)
  (hq : Reaches (r.launch p parent) q) {k : Nat} {t : Task} {s : Task.Step}
  (hk : p.tasks.length ≤ k) (ht : q.tasks[k]? = some t)
  (hs : t.step? q.contexts q.now = some s)

include hq hk ht in
/-- The tasks of an evaluation keep the contexts that they were handed. -/
theorem context_of_reaches :
    ∃ i c, r.checkers[i]? = some c ∧ t.context = r.handed p parent i := by
  have hlt : k < (r.launch p parent).tasks.length := by
    rw [← length_tasks_reaches hq]
    exact (List.getElem?_eq_some_iff.1 ht).1
  obtain ⟨g, hg, -⟩ := task_reaches hq (List.getElem?_eq_getElem hlt)
  obtain rfl := Option.some.inj (ht.symm.trans hg)
  rcases task_launch_cases p parent (List.getElem?_eq_getElem hlt) with hold | ⟨i, c, -, hi, heq⟩
  · exact absurd (List.getElem?_eq_some_iff.1 hold).1 (by omega)
  · exact ⟨i, c, hi, congrArg Task.context heq⟩

include hp hparent hq hk ht hs in
/-- A step of a check leaves the contexts from before its evaluation alone. -/
theorem isCanceled_old_of_step {n : Nat} (hn : n < p.contexts.nodes.length) :
    s.contexts.isCanceled n = q.contexts.isCanceled n := by
  obtain ⟨i, -, -, hctx⟩ := context_of_reaches hq hk ht
  have hle := length_le_node_handed r p parent i
  have hwf := wellFormed_of_cancels (cancels_reaches hq) (wellFormed_launch hp hparent)
  rcases Task.step?_contexts hs with hc | ⟨hc, -⟩
  · rw [hc]
  · have hnot : t.context.node ∉ q.contexts.lineage n := fun hmem => by
      have := Contexts.le_of_mem_lineage hmem
      rw [hctx] at this
      omega
    rw [hc, Bool.eq_iff_iff, Contexts.isCanceled_cancelNode hwf]
    simp [hnot]

include hp hparent hq hk ht hs in
/-- Without a budget for the single check, a check that cancels its context cancels them all. -/
theorem isCanceled_of_cancel (hbound : r.budgets.checkBound = none) {next : Behaviour}
    (hcancel : t.progress = .running (.cancel next)) {j : Nat} {u : Task}
    (hj : p.tasks.length ≤ j) (hu : q.tasks[j]? = some u) :
    s.contexts.isCanceled u.context.node = true := by
  obtain ⟨i, c, hi, hctx⟩ := context_of_reaches hq hk ht
  obtain ⟨i', -, -, hctx'⟩ := context_of_reaches hq hj hu
  have hsame : u.context.node = t.context.node := by
    rw [hctx, hctx', handed, handed, hbound]
  rw [Task.step?, hcancel] at hs
  cases hs
  rw [hsame]
  have hwf := wellFormed_of_cancels (cancels_reaches hq) (wellFormed_launch hp hparent)
  refine Contexts.isCanceled_cancelNode_self hwf ?_
  rw [length_of_cancels (cancels_reaches hq), hctx]
  exact lt_length_handed p parent hi

end Cancelling

/-- Who has not ended when its context is cancelled is not in order. -/
theorem status_of_canceled (hp : p.contexts.WellFormed) (h : Reaches p q) {k : Nat} {t u : Task}
    (hk : p.tasks[k]? = some t) (hlive : t.hasEnded = false)
    (hc : p.contexts.isCanceled t.context.node = true) (hu : q.tasks[k]? = some u)
    {result : CheckResult} {elapsed : Duration} (hr : u.progress = .returned result elapsed) :
    result.status = .error := by
  obtain ⟨m, g, s, hm, -, hs, -, rfl⟩ := exists_last_step h hk hlive hu (by rw [Task.hasEnded, hr])
  obtain ⟨o, -, -, -, hjudge⟩ := Task.step?_returned hs hr
  have hjudged := judged_judge o m.contexts t.context m.now t.name elapsed
  rw [← hjudge] at hjudged
  cases hstatus : result.status with
  | error => rfl
  | ok =>
    have hstill := isCanceled_of_cancels (cancels_reaches hm) hp hc
    exact absurd hstill (hjudged.status_iff.1 hstatus).2.1

/-- **With a budget for the single check, checks do not notice each other.**  Let one of them do
anything else instead, such as not to cancel its context.  Then, of every other check:

* it may come to the same as before, with the moves in any order;
* two responses say the same of it;
* if it is undisturbed by a cancellation of the caller, it comes to the same in any two orders.

Whatever the budgets, no step of a check cancels the caller or any other context from before.
Without a budget for the single check the context is everybody's: when a check cancels it, those
that have ended keep what they have come to, and of the others none is in order any more. -/
theorem isolated (r : Readiness) {p : Pool} {parent : Context} (hhosts : p.Hosts parent) :
    (r.budgets.checkBound ≠ none → ∀ (i : Nat) (b : Behaviour) (j : Nat) (c : Checker), j ≠ i →
      r.checkers[j]? = some c →
      (∀ g, (∀ b, g ≠ .running b) →
        (r.MayEnd p parent j g ↔ (r.instead i b).MayEnd p parent j g)) ∧
      (∀ m m' x x', (r.evaluate parent none ⟨p, m⟩).1 = .response x →
        ((r.instead i b).evaluate parent none ⟨p, m'⟩).1 = .response x' →
        ∃ y, x.checks[j]? = some y ∧ x'.checks[j]? = some y) ∧
      (Course.Undisturbed (p.outlook parent.node).2 p.now (r.single p parent c) →
        ∀ g g', (∀ b, g ≠ .running b) → (∀ b, g' ≠ .running b) → r.MayEnd p parent j g →
          (r.instead i b).MayEnd p parent j g' → g = g')) ∧
    ∀ q, Reaches (r.launch p parent) q → ∀ k t s, p.tasks.length ≤ k → q.tasks[k]? = some t →
      t.step? q.contexts q.now = some s →
      (∀ n < p.contexts.nodes.length, s.contexts.isCanceled n = q.contexts.isCanceled n) ∧
      (r.budgets.checkBound = none → ∀ next, t.progress = .running (.cancel next) →
        ∀ q', Reaches (q.put k t s) q' → ∀ j u u', j ≠ k → p.tasks.length ≤ j →
          q.tasks[j]? = some u → q'.tasks[j]? = some u' →
          (u.hasEnded = true → u'.progress = u.progress) ∧
          (u.hasEnded = false → ∀ result elapsed, u'.progress = .returned result elapsed →
            result.status = .error)) := by
  have hp := hhosts.wellFormed
  have hparent := hhosts.parent_lt
  constructor
  · intro hbound i b j c hji hj
    have hj' : (r.instead i b).checkers[j]? = some c := (getElem?_instead hji b).trans hj
    have hspared : r.Spared j := fun h => absurd h hbound
    have hspared' : (r.instead i b).Spared j := fun h => absurd h hbound
    have hcourse : ∀ {g}, (∀ b, g ≠ .running b) →
        (r.MayEnd p parent j g ↔ (r.instead i b).MayEnd p parent j g) := fun hg =>
      (mayEnd_iff_course hhosts hj hspared hg).trans (mayEnd_iff_course hhosts hj' hspared' hg).symm
    refine ⟨fun g => hcourse, fun m m' x x' hx hx' => ?_, fun hclear g g' hg hg' hmay hmay' => ?_⟩
    · obtain ⟨y, hy, halone⟩ := getElem?_of_response hhosts hj hspared hx
      obtain ⟨y', hy', halone'⟩ := getElem?_of_response hhosts hj' hspared' hx'
      obtain rfl : y = y' := Option.some.inj (halone.symm.trans halone')
      exact ⟨y, hy, hy'⟩
    · have hone := (mayEnd_iff_course hhosts hj hspared hg).1 hmay
      have htwo := (mayEnd_iff_course hhosts hj hspared hg').1 ((hcourse hg').2 hmay')
      exact (hone.orderly rfl fun _ => hclear).unique (htwo.orderly rfl fun _ => hclear)
  · intro q hq k t s hk ht hs
    refine ⟨fun n => isCanceled_old_of_step hp hparent hq hk ht hs, ?_⟩
    intro hbound next hcancel q' hq' j u u' hjk hj hu hu'
    have hwf := wellFormed_of_cancels (cancels_reaches (hq.tail (moves_put ht hs)))
      (wellFormed_launch hp hparent)
    have hput : (q.put k t s).tasks[j]? = some u := by
      rwa [put, List.getElem?_set_ne (Ne.symm hjk)]
    refine ⟨fun hend => ?_, fun hlive result elapsed hr => ?_⟩
    · obtain ⟨g, hg, hkept⟩ := task_reaches hq' hput
      obtain rfl := Option.some.inj (hu'.symm.trans hg)
      exact hkept hend
    · exact status_of_canceled hwf hq' hput hlive
        (isCanceled_of_cancel hp hparent hq hk ht hs hbound hcancel hj hu) hu' hr

/-- Of three checks each of which cancels its context, the others notice nothing. -/
theorem isolated_three_cancelling :
    let c : Checker := ⟨"db", .cancel (.finish ⟨.ok, none⟩)⟩
    let r : Readiness := { checkers := [c, c, c], budgets := ⟨0, some 5⟩ }
    let p : Pool := { contexts := ({} : Contexts).background.1 }
    (∀ g, (∀ b, g ≠ .running b) →
      (r.MayEnd p ⟨0, none⟩ 2 g ↔ (r.instead 1 (.finish ⟨.ok, none⟩)).MayEnd p ⟨0, none⟩ 2 g)) ∧
    ∀ s, (c.begun (r.handed p ⟨0, none⟩ 0) 0).step? (r.launch p ⟨0, none⟩).contexts 0 = some s →
      s.contexts.isCanceled 0 = false := by
  intro c r p
  obtain ⟨hchecks, hsteps⟩ := isolated r (hosts_background (p := p) rfl rfl (by simp [p]) none)
  refine ⟨(hchecks (by decide) 1 _ 2 c (by decide) rfl).1, fun s hs => ?_⟩
  exact (hsteps _ .refl 0 _ s le_rfl rfl hs).1 0 (by decide)

/-! ## Checks that share a context -/

/-- An evaluation that runs until all checks have results lists them. -/
theorem evaluate_of_run (r : Readiness) (parent : Context) (h : HealthState)
    (results : List CheckResult)
    (hrun : (r.launch h.pool parent).run (·.hasEndedFrom h.pool.tasks.length) none = q)
    (hresults : ((q.tasks.drop h.pool.tasks.length).map fun t => t.progress.result?) =
      results.map some) :
    ∃ x, (r.evaluate parent none h).1 = .response x ∧ x.checks = results := by
  have hall : ∀ t ∈ q.tasks.drop h.pool.tasks.length, t.progress.result? ≠ none := by
    intro t ht
    obtain ⟨y, -, heq⟩ := List.mem_map.1 (hresults ▸ List.mem_map_of_mem ht)
    rw [← heq]
    exact Option.some_ne_none y
  have hend : (r.evaluate parent none h).1 = _ :=
    evaluate_of_ended (by rw [hrun]; exact hasEndedFrom_of_results hall)
  rw [hrun] at hend
  obtain ⟨x, hx, hchecks, -⟩ := r.conclude_of_results h.metrics hall
  refine ⟨x, hend.trans hx, ?_⟩
  exact List.map_injective_iff.2 (Option.some_injective _) (hchecks.trans hresults)

/-- **Without a budget for the single check, one that cancels its context costs another one its
result.** -/
theorem canceled_by_sibling :
    let r : Readiness := {
      checkers := [⟨"a", .cancel (.finish ⟨.ok, none⟩)⟩, ⟨"b", .finish ⟨.ok, none⟩⟩]
      budgets := .unbounded }
    let h : HealthState := { pool := { contexts := ({} : Contexts).background.1 } }
    ∃ x x', (r.evaluate ⟨0, none⟩ none h).1 = .response x ∧
      ((r.instead 0 (.finish ⟨.ok, none⟩)).evaluate ⟨0, none⟩ none h).1 = .response x' ∧
      x.checks[1]? = some ⟨"b", .error, some "context canceled", Duration.describe 0⟩ ∧
      x'.checks[1]? = some ⟨"b", .ok, none, Duration.describe 0⟩ := by
  intro r h
  obtain ⟨x, hx, hchecks⟩ := evaluate_of_run r ⟨0, none⟩ h
    [⟨"a", .error, some "context canceled", Duration.describe 0⟩,
      ⟨"b", .error, some "context canceled", Duration.describe 0⟩]
    ((run_of_step rfl rfl).trans ((run_of_step rfl rfl).trans ((run_of_step rfl rfl).trans
      (run_of_enough rfl)))) rfl
  obtain ⟨x', hx', hchecks'⟩ := evaluate_of_run (r.instead 0 (.finish ⟨.ok, none⟩))
    ⟨0, none⟩ h [⟨"a", .ok, none, Duration.describe 0⟩, ⟨"b", .ok, none, Duration.describe 0⟩]
    ((run_of_step rfl rfl).trans ((run_of_step rfl rfl).trans (run_of_enough rfl))) rfl
  exact ⟨x, x', hx, hx', by rw [hchecks]; rfl, by rw [hchecks']; rfl⟩

end Readiness
end HealthService
