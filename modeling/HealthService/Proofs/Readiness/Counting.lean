import HealthService.Proofs.Readiness.Endings
import HealthService.Proofs.Readiness.Verdict

/-!
# What is counted of an evaluation

When all checks have ended, the evaluation goes through them in the order of the checkers, counts
each result, and panics itself as soon as it comes to a check that has panicked.  What it has counted
by then are the reports before that check (`Readiness.told`).

* `getElem?_told` — **a report is told iff all checks before it have one too**.
* `count_recorded`, `durations_recorded` — each result that is recorded adds one to a total, and one
  duration.
* `counted_up_to_panic` — **what is counted are the reports before the first check that panicked**,
  for every evaluation that is not dropped; if none panicked, these are all.
* `uncounted_after_panic` — so the result of a check may be lost because of another one.
-/

namespace HealthService

open Pool

/-- What a check that has not panicked has to report: its result, and how long it took. -/
def Progress.report? : Progress → Option (CheckResult × Duration)
  | .returned result elapsed => some (result, elapsed)
  | _ => none

/-! ## Reports before a panic -/

namespace Readiness

/-- The reports of checks up to the first one that has none. -/
def told (ts : List Task) : List (CheckResult × Duration) :=
  ((ts.map fun t => t.progress.report?).takeWhile Option.isSome).reduceOption

theorem told_cons (t : Task) (ts : List Task) :
    told (t :: ts) = match t.progress.report? with
      | some x => x :: told ts
      | none => [] := by
  unfold told
  rw [List.map_cons, List.takeWhile_cons]
  cases t.progress.report? with
  | none => rfl
  | some x => rfl

/-- An evaluation counts the reports that are told. -/
theorem collect_fst (ts : List Task) : (collect ts).1 = told ts := by
  induction ts with
  | nil => rfl
  | cons t ts ih =>
    rw [collect, told_cons]
    cases t.progress with
    | returned result elapsed => exact congrArg _ ih
    | running b => rfl
    | panicked payload => rfl

/-- **A report is told iff all checks before it have one too.** -/
theorem getElem?_told {ts : List Task} {i : Nat} {x : CheckResult × Duration} :
    (told ts)[i]? = some x ↔ (∃ t, ts[i]? = some t ∧ t.progress.report? = some x) ∧
      ∀ j < i, ∀ t, ts[j]? = some t → t.progress.report? ≠ none := by
  induction ts generalizing i with
  | nil => simp [told]
  | cons t ts ih =>
    rw [told_cons]
    cases hr : t.progress.report? with
    | none =>
      refine ⟨fun h => by simp at h, ?_⟩
      rintro ⟨⟨u, hu, hx⟩, hbefore⟩
      cases i with
      | zero =>
        obtain rfl := Option.some.inj hu
        rw [hr] at hx
        cases hx
      | succ i => exact absurd hr (hbefore 0 (Nat.succ_pos i) t rfl)
    | some y =>
      cases i with
      | zero => simp [hr]
      | succ i =>
        rw [List.getElem?_cons_succ, ih, List.getElem?_cons_succ]
        refine and_congr_right fun _ => ⟨fun h j hj u hu => ?_, fun h j hj u hu => ?_⟩
        · cases j with
          | zero =>
            obtain rfl := Option.some.inj hu
            simp [hr]
          | succ j => exact h j (Nat.lt_of_succ_lt_succ hj) u hu
        · exact h (j + 1) (Nat.succ_lt_succ hj) u hu

/-- If no check has panicked, all reports are told. -/
theorem told_of_calm {ts : List Task} (h : ∀ t ∈ ts, t.progress.report? ≠ none) :
    (told ts).map some = ts.map fun t => t.progress.report? := by
  induction ts with
  | nil => rfl
  | cons t ts ih =>
    obtain ⟨ht, hts⟩ := List.forall_mem_cons.1 h
    rw [told_cons, List.map_cons, ← ih hts]
    cases hr : t.progress.report? with
    | none => exact absurd hr ht
    | some x => rfl

end Readiness

/-! ## Recording -/

namespace Metrics

/-- Every result that is recorded adds one to the total of its name and status. -/
theorem count_recorded (m : Metrics) (results : List (CheckResult × Duration)) (name : String)
    (status : Status) :
    (results.foldl (fun m (x, elapsed) => m.record x.name x.status elapsed) m).count name status =
      m.count name status + results.countP fun x => x.1.name = name ∧ x.1.status = status := by
  induction results generalizing m with
  | nil => rfl
  | cons x results ih =>
    rw [List.foldl_cons, ih, count_record, List.countP_cons, Nat.add_assoc, Nat.add_comm (ite _ _ _)]
    simp only [Prod.mk.injEq, eq_comm (a := name), eq_comm (a := status), decide_eq_true_eq]

/-- Every result that is recorded adds one duration to those of its name. -/
theorem durations_recorded (m : Metrics) (results : List (CheckResult × Duration)) (name : String) :
    (results.foldl (fun m (x, elapsed) => m.record x.name x.status elapsed) m).durations name =
      m.durations name ++ (results.filter fun x => x.1.name = name).map Prod.snd := by
  induction results generalizing m with
  | nil => simp
  | cons x results ih =>
    rw [List.foldl_cons, ih, durations_record, List.filter_cons]
    by_cases h : x.1.name = name
    · simp [h]
    · simp [h, Ne.symm h]

end Metrics

/-! ## Counting -/

namespace Readiness

variable {r : Readiness} {h h' : HealthState} {parent : Context} {v : Verdict} {entries : List Entry}
  {q : Pool}

/-- The tables of an evaluation that is concluded are those with the told reports recorded. -/
theorem tables_conclude (r : Readiness) (m : Metrics) (ts : List Task) :
    (r.conclude m ts).2.1.totals = (r.count m (told ts)).totals ∧
      (r.conclude m ts).2.1.times = (r.count m (told ts)).times := by
  rw [← collect_fst]
  cases hpanic : (collect ts).2 with
  | some payload => simp only [conclude, hpanic, and_self]
  | none => by_cases hmetered : r.metered = true <;> simp [conclude, hpanic, hmetered, Metrics.setReady]

theorem count_conclude (hmetered : r.metered = true) (m : Metrics) (ts : List Task) (name : String)
    (status : Status) : (r.conclude m ts).2.1.count name status =
      m.count name status + (told ts).countP fun x => x.1.name = name ∧ x.1.status = status := by
  rw [← m.count_recorded, Metrics.count, (tables_conclude r m ts).1, count, if_pos hmetered]
  rfl

theorem durations_conclude (hmetered : r.metered = true) (m : Metrics) (ts : List Task)
    (name : String) : (r.conclude m ts).2.1.durations name =
      m.durations name ++ ((told ts).filter fun x => x.1.name = name).map Prod.snd := by
  rw [← m.durations_recorded, Metrics.durations, (tables_conclude r m ts).2, count, if_pos hmetered]
  rfl

/-- When an evaluation is over, its tasks are its checks, by name. -/
theorem names_of_passes (hq : Passes (r.launch h.pool parent) q) :
    (q.tasks.drop h.pool.tasks.length).map Task.name = r.names := by
  have hlen : q.tasks.length = h.pool.tasks.length + r.checkers.length := by
    rw [length_tasks_passes hq, launch_eq]
    simp
  refine List.ext_getElem? fun i => ?_
  rw [names, List.getElem?_map, List.getElem?_map, List.getElem?_drop]
  cases hi : r.checkers[i]? with
  | some c =>
    obtain ⟨g, hg⟩ := task_passes hq (task_launch h.pool parent hi)
    rw [hg]
    rfl
  | none =>
    rw [List.getElem?_eq_none_iff] at hi
    rw [List.getElem?_eq_none (by omega)]
    rfl

/-- The tasks of an evaluation are its checks, which have been begun when it started. -/
theorem begun_of_passes {p : Pool} (hq : Passes (r.launch p parent) q) {i : Nat} {t : Task}
    (hi : q.tasks[p.tasks.length + i]? = some t) : ∃ c, r.checkers[i]? = some c ∧
      (r.launch p parent).tasks[p.tasks.length + i]? =
        some (c.begun (r.handed p parent i) p.now) := by
  have hlt : p.tasks.length + i < (r.launch p parent).tasks.length := by
    rw [← length_tasks_passes hq]
    exact (List.getElem?_eq_some_iff.1 hi).1
  have hstart := List.getElem?_eq_getElem hlt
  rcases task_launch_cases p parent hstart with hold | ⟨j, c, hij, hj, hc⟩
  · exact absurd (List.getElem?_eq_some_iff.1 hold).1 (by omega)
  · obtain rfl : i = j := by omega
    rw [hc] at hstart
    exact ⟨c, hj, hstart⟩

/-- A check that has ended has panicked or has a result under its own name. -/
theorem ended_of_passes (hq : Passes (r.launch h.pool parent) q)
    (hend : q.hasEndedFrom h.pool.tasks.length = true) {t : Task}
    (ht : t ∈ q.tasks.drop h.pool.tasks.length) : (∃ payload, t.progress = .panicked payload) ∨
      ∃ result elapsed, t.progress = .returned result elapsed ∧ result.name = t.name := by
  obtain ⟨i, hi⟩ := List.getElem?_of_mem ht
  rw [List.getElem?_drop] at hi
  obtain ⟨c, -, hstart⟩ := begun_of_passes hq hi
  have hended := List.all_eq_true.1 hend _ ht
  cases hp : t.progress with
  | running b =>
    rw [Task.hasEnded, hp] at hended
    cases hended
  | panicked payload => exact Or.inl ⟨payload, rfl⟩
  | returned result elapsed =>
    refine Or.inr ⟨result, elapsed, rfl, ?_⟩
    obtain ⟨g, hg⟩ := task_passes hq hstart
    obtain rfl := Option.some.inj (hi.symm.trans hg)
    exact name_passes hq hstart rfl hg hp

/-- **What is counted are the reports before the first check that panicked.**  For every evaluation
with metrics that is not dropped, whatever its checkers do and in whatever order:

* its tasks are the checks in the order of the checkers, and each of them has panicked or has a result
  under its own name;
* each report that is told adds one to the total of its name and status, and its duration to those of
  its name, and nothing else is added;
* a report is told iff all checks before it in the list have reports as well, so if none has panicked,
  all are told. -/
theorem counted_up_to_panic (hmetered : r.metered = true) (he : r.Ends parent h v h' entries)
    (hv : v ≠ .abandoned) :
    (h'.pool.tasks.drop h.pool.tasks.length).map Task.name = r.names ∧
    (∀ t ∈ h'.pool.tasks.drop h.pool.tasks.length, (∃ payload, t.progress = .panicked payload) ∨
      ∃ result elapsed, t.progress = .returned result elapsed ∧ result.name = t.name) ∧
    (∀ name status, h'.metrics.count name status = h.metrics.count name status +
      (told (h'.pool.tasks.drop h.pool.tasks.length)).countP fun x =>
        x.1.name = name ∧ x.1.status = status) ∧
    (∀ name, h'.metrics.durations name = h.metrics.durations name ++
      ((told (h'.pool.tasks.drop h.pool.tasks.length)).filter fun x => x.1.name = name).map
        Prod.snd) ∧
    (∀ i x, (told (h'.pool.tasks.drop h.pool.tasks.length))[i]? = some x ↔
      (∃ t, h'.pool.tasks[h.pool.tasks.length + i]? = some t ∧ t.progress.report? = some x) ∧
      ∀ j < i, ∀ t, h'.pool.tasks[h.pool.tasks.length + j]? = some t →
        t.progress.report? ≠ none) ∧
    ((∀ t ∈ h'.pool.tasks.drop h.pool.tasks.length, ∀ payload, t.progress ≠ .panicked payload) →
      (told (h'.pool.tasks.drop h.pool.tasks.length)).map some =
        (h'.pool.tasks.drop h.pool.tasks.length).map fun t => t.progress.report?) := by
  cases he with
  | dropped => exact absurd rfl hv
  | @concluded q hq hend =>
    refine ⟨names_of_passes (q := q) hq, fun t => ended_of_passes (q := q) hq hend,
      count_conclude hmetered _ _, durations_conclude hmetered _ _, fun i x => ?_, fun hcalm => ?_⟩
    · rw [getElem?_told, List.getElem?_drop]
      simp only [List.getElem?_drop]
    · refine told_of_calm fun t ht => ?_
      rcases ended_of_passes (q := q) hq hend ht with ⟨payload, hp⟩ | ⟨result, elapsed, hp, -⟩
      · exact absurd hp (hcalm t ht payload)
      · simp [hp, Progress.report?]

/-- An evaluation whose run ends with all checks is concluded in that pool. -/
theorem evaluate_of_run_eq (r : Readiness) (parent : Context) (h : HealthState)
    (hrun : (r.launch h.pool parent).run (·.hasEndedFrom h.pool.tasks.length) none = q)
    (hend : q.hasEndedFrom h.pool.tasks.length = true) :
    r.evaluate parent none h =
      ((r.conclude h.metrics (q.tasks.drop h.pool.tasks.length)).1,
        ⟨left h q, (r.conclude h.metrics (q.tasks.drop h.pool.tasks.length)).2.1⟩,
        (r.conclude h.metrics (q.tasks.drop h.pool.tasks.length)).2.2) := by
  subst hrun
  rw [evaluate_eq]
  simp only [hend, if_true]

/-- A check is counted that is listed before one that panics. -/
theorem counted_before_panic :
    let r : Readiness := {
      checkers := [⟨"b", .finish ⟨.ok, none⟩⟩, ⟨"a", .panic (.text "boom")⟩]
      budgets := .unbounded
      metered := true }
    let h : HealthState := { pool := { contexts := ({} : Contexts).background.1 } }
    (r.evaluate ⟨0, none⟩ none h).1 = .panic (.text "boom") ∧
      (r.evaluate ⟨0, none⟩ none h).2.1.metrics.count "b" .ok = 1 := by
  intro r h
  have heval := evaluate_of_run_eq r ⟨0, none⟩ h
    ((run_of_step rfl rfl).trans ((run_of_step rfl rfl).trans (run_of_enough rfl))) rfl
  have hends := ends_evaluate r ⟨0, none⟩ none h
  rw [heval] at hends ⊢
  have hcounted := counted_up_to_panic rfl hends fun hv => Verdict.noConfusion hv
  exact ⟨rfl, (hcounted.2.2.1 "b" .ok).trans rfl⟩

/-- **A check is not counted that is listed after one that panics**, although it has a result. -/
theorem uncounted_after_panic :
    let r : Readiness := {
      checkers := [⟨"a", .panic (.text "boom")⟩, ⟨"b", .finish ⟨.ok, none⟩⟩]
      budgets := .unbounded
      metered := true }
    let h : HealthState := { pool := { contexts := ({} : Contexts).background.1 } }
    (r.evaluate ⟨0, none⟩ none h).1 = .panic (.text "boom") ∧
      ((r.evaluate ⟨0, none⟩ none h).2.1.pool.tasks[1]?.map fun t => t.progress.report?) =
        some (some (⟨"b", .ok, none, Duration.describe 0⟩, 0)) ∧
      (r.evaluate ⟨0, none⟩ none h).2.1.metrics.count "b" .ok = 0 ∧
      (r.evaluate ⟨0, none⟩ none h).2.1.metrics.durations "b" = [] := by
  intro r h
  rw [evaluate_of_run_eq r ⟨0, none⟩ h
    ((run_of_step rfl rfl).trans ((run_of_step rfl rfl).trans (run_of_enough rfl))) rfl]
  exact ⟨rfl, rfl, rfl, rfl⟩

end Readiness
end HealthService
