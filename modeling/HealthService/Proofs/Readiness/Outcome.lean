import HealthService.Proofs.Readiness.Counting

/-!
# What an evaluation comes to

An evaluation that its caller waits for comes to a panic if one of its checks has panicked, and else
to a response, which is in order iff the results of all checks are.  A caller who waits without limit
sees its end, unless some check waits for what never comes.

* `conclude_cases` — **the verdict when all checks have ended**.
* `hasEnded_of_waits` — **all checks end** that do not wait without a timer in a context without a
  deadline.
* `evaluate_cases` — both together, for every evaluation.
-/

namespace HealthService

open Pool

/-- Whether a check has panicked. -/
def Progress.isPanic : Progress → Bool
  | .panicked _ => true
  | _ => false

/-- Whether a check has a result that is in order. -/
def Progress.isOk : Progress → Bool
  | .returned result _ => result.status.isOk
  | _ => false

namespace Progress

theorem isOk_iff {g : Progress} : g.isOk = true ↔ ∃ y, g.result? = some y ∧ y.status = .ok := by
  cases g with
  | returned result elapsed => cases hs : result.status <;> simp [isOk, result?, hs, Status.isOk]
  | running b => simp [isOk, result?]
  | panicked payload => simp [isOk, result?]

theorem result?_of_isPanic {g : Progress} (h : g.isPanic = true) : g.result? = none := by
  cases g with
  | returned result elapsed => cases h
  | running b => rfl
  | panicked payload => rfl

theorem isPanic_of_result? {t : Task} (hend : t.hasEnded = true) (h : t.progress.result? = none) :
    t.progress.isPanic = true := by
  cases hp : t.progress with
  | returned result elapsed => simp [hp, result?] at h
  | running b => simp [hp, Task.hasEnded] at hend
  | panicked payload => rfl

end Progress

namespace Readiness

variable {r : Readiness} {h : HealthState} {parent : Context} {p q : Pool} {ts : List Task}

/-! ## When all checks have ended -/

/-- The listed results are in order iff those of all checks are. -/
theorem all_ok_iff {xs : List CheckResult} (h : xs.map some = ts.map fun t => t.progress.result?) :
    (∀ y ∈ xs, y.status = .ok) ↔ (ts.all fun t => t.progress.isOk) = true := by
  have hlisted : (∀ t ∈ ts, t.progress.isOk = true) ↔
      ∀ o ∈ ts.map fun t => t.progress.result?, ∃ y, o = some y ∧ y.status = .ok := by
    simp only [List.forall_mem_map, Progress.isOk_iff]
  rw [List.all_eq_true, hlisted, ← h, List.forall_mem_map]
  simp only [Option.some.injEq, exists_eq_left']

/-- **The verdict when all checks have ended**: a panic if one of them has panicked, and else a
response whose status code tells whether all results are in order. -/
theorem conclude_cases (r : Readiness) (m : Metrics) (hend : ∀ t ∈ ts, t.hasEnded = true) :
    ((ts.any fun t => t.progress.isPanic) = true ∧ ∃ payload, (r.conclude m ts).1 = .panic payload) ∨
    (ts.any fun t => t.progress.isPanic) = false ∧ ∃ x, (r.conclude m ts).1 = .response x ∧
      x.statusCode = if (ts.all fun t => t.progress.isOk) = true then 200 else 503 := by
  cases hpanic : (collect ts).2 with
  | none =>
    have hcalm := collect_eq_none_iff.1 hpanic
    obtain ⟨x, hx, hchecks, hstatus⟩ := r.conclude_of_results m hcalm
    have hpanics : (ts.any fun t => t.progress.isPanic) = false :=
      List.any_eq_false.2 fun t ht h => hcalm t ht (Progress.result?_of_isPanic h)
    refine Or.inr ⟨hpanics, x, hx, ?_⟩
    have hok : x.status.isOk = ts.all fun t => t.progress.isOk := by
      rw [Bool.eq_iff_iff, ← all_ok_iff hchecks, ← hstatus]
      cases x.status <;> simp [Status.isOk]
    rw [ReadyResponse.statusCode, hok]
  | some payload =>
    have hnone : ¬ ∀ t ∈ ts, t.progress.result? ≠ none := by
      rw [← collect_eq_none_iff, hpanic]
      simp
    push Not at hnone
    obtain ⟨t, ht, hresult⟩ := hnone
    refine Or.inl ⟨List.any_eq_true.2 ⟨t, ht, Progress.isPanic_of_result? (hend t ht) hresult⟩,
      payload, ?_⟩
    simp only [conclude, hpanic]

/-! ## That all checks end -/

/-- **All checks end** if the caller waits without limit and none of them waits without a timer in a
context without a deadline. -/
theorem hasEnded_of_waits (hwaits : ∀ c ∈ r.checkers,
    c.behaviour.Always (Behaviour.WaitsFor (r.budgets.checkDeadline p.now parent.deadline))) :
    ((r.launch p parent).run (·.hasEndedFrom p.tasks.length) none).hasEndedFrom p.tasks.length =
      true := by
  rcases (run_reaches (·.hasEndedFrom p.tasks.length) (r.launch p parent)).2 with hend | ⟨hidle, hnext⟩
  · exact hend
  have hpass := run_passes (·.hasEndedFrom p.tasks.length) none (r.launch p parent)
  refine List.all_eq_true.2 fun t ht => ?_
  by_contra hlive
  rw [Bool.not_eq_true] at hlive
  obtain ⟨i, hi⟩ := List.getElem?_of_mem ht
  rw [List.getElem?_drop] at hi
  obtain ⟨c, hc, hstart⟩ := begun_of_passes hpass hi
  obtain ⟨g, hg⟩ := task_passes hpass hstart
  obtain rfl := Option.some.inj (hi.symm.trans hg)
  -- a task that does not go on of itself has nothing left that could wake it up
  have hmem := List.mem_of_mem_drop ht
  have halways := always_passes hpass hstart (P := Behaviour.WaitsFor
    (r.budgets.checkDeadline p.now parent.deadline)) (fun b hb => by
      cases hb
      exact hwaits c (List.mem_of_getElem? hc)) hi
  exact Task.wakeUp?_of_waits ((step?_eq_none_iff.1 hidle).2 _ hmem) hlive halways
    ((next?_eq_none hnext).1 _ hmem)

/-! ## Evaluations -/

/-- **What an evaluation comes to.**  It runs all checkers.  Its caller gives up while one of the
checks is still running, or else it comes to a panic or to a response as the checks say. -/
theorem evaluate_cases {limit : Option Time} {verdict : Verdict} {h' : HealthState}
    {entries : List Entry} (he : r.evaluate parent limit h = (verdict, h', entries)) :
    (h'.pool.tasks.drop h.pool.tasks.length).map Task.name = r.names ∧
    ((verdict = .abandoned ∧ ∃ t ∈ h'.pool.tasks.drop h.pool.tasks.length, t.hasEnded = false) ∨
      (∀ t ∈ h'.pool.tasks.drop h.pool.tasks.length, t.hasEnded = true) ∧
        ((((h'.pool.tasks.drop h.pool.tasks.length).any fun t => t.progress.isPanic) = true ∧
            ∃ payload, verdict = .panic payload) ∨
          ((h'.pool.tasks.drop h.pool.tasks.length).any fun t => t.progress.isPanic) = false ∧
            ∃ x, verdict = .response x ∧ x.statusCode =
              if ((h'.pool.tasks.drop h.pool.tasks.length).all fun t => t.progress.isOk) = true
              then 200 else 503)) := by
  have hnames := names_of_passes
    (run_passes (·.hasEndedFrom h.pool.tasks.length) limit (r.launch h.pool parent))
  rw [evaluate_eq] at he
  dsimp only at he
  split at he
  · rename_i hend
    rw [hasEndedFrom, List.all_eq_true] at hend
    cases he
    exact ⟨hnames, Or.inr ⟨hend, conclude_cases r _ hend⟩⟩
  · rename_i hlive
    cases he
    refine ⟨hnames, Or.inl ⟨rfl, ?_⟩⟩
    rw [hasEndedFrom, List.all_eq_true] at hlive
    push Not at hlive
    obtain ⟨t, ht, hrunning⟩ := hlive
    exact ⟨t, ht, Bool.eq_false_iff.2 hrunning⟩

/-- **A caller who waits without limit is not left without an answer** by checks that all end. -/
theorem evaluate_of_waits {verdict : Verdict} {h' : HealthState} {entries : List Entry}
    (he : r.evaluate parent none h = (verdict, h', entries)) (hwaits : ∀ c ∈ r.checkers,
      c.behaviour.Always (Behaviour.WaitsFor (r.budgets.checkDeadline h.pool.now parent.deadline))) :
    verdict ≠ .abandoned := by
  have hend := hasEnded_of_waits (p := h.pool) hwaits
  have hverdict := r.verdict_eq parent none h
  rw [he, if_pos hend] at hverdict
  rw [hasEndedFrom, List.all_eq_true] at hend
  rintro rfl
  rcases conclude_cases r h.metrics hend with ⟨-, payload, hp⟩ | ⟨-, x, hx, -⟩
  · exact Verdict.noConfusion (hverdict.trans hp)
  · exact Verdict.noConfusion (hverdict.trans hx)

end Readiness
end HealthService
