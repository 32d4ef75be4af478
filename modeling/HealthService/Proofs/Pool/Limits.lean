import HealthService.Proofs.Pool.Erasure

/-!
# Runs that somebody gives up

Somebody who waits for a run may give up at some time.  What the run has come to by then is what it comes
to without a limit, as far as it gets.

* `run_of_enough_in_time` — **a run that is over in time is the run without a limit**.
* `run_of_late` — **any other run stops at the limit**, and not enough has been seen of it.
-/

namespace HealthService.Pool

variable {enough : Pool → Bool} {p q : Pool} {l u : Time}

/-! ## The clock of a run -/

/-- What happens at an instant takes no time. -/
theorem now_of_step? (h : p.step? = some q) : q.now = p.now := by
  rcases moves_cases (moves_of_step? h).1 with ⟨_, _, _, -, -, rfl⟩ | ⟨_, _, _, -, -, rfl⟩ | ⟨_, hidle, -⟩
  · rfl
  · rfl
  · rw [hidle] at h
    cases h

/-- The clock of a run does not go back. -/
theorem now_le_run (enough : Pool → Bool) (limit : Option Time) (p : Pool) :
    p.now ≤ (p.run enough limit).now := now_passes (run_passes enough limit p)

theorem isBeyond_eq_false_iff : p.isBeyond (some l) u = false ↔ u ≤ p.now.wakeUp l := by
  rw [isBeyond, Option.any_some, decide_eq_false_iff_not, not_lt]

/-- A limit stays where it is until the clock has reached it. -/
theorem wakeUp_of_next? (hu : p.next? = some u) (hle : u ≤ p.now.wakeUp l) :
    u.wakeUp l = p.now.wakeUp l := Time.wakeUp_of_le (le_next? hu) hle

/-! ## Limits -/

/-- **A run that is over in time is the run without a limit.** -/
theorem run_of_enough_in_time (henough : enough (p.run enough none) = true)
    (hle : (p.run enough none).now ≤ p.now.wakeUp l) :
    p.run enough (some l) = p.run enough none := by
  induction p using rank.wf.induction with
  | _ p ih =>
    cases h : enough p with
    | true => rw [run_of_enough h, run_of_enough h]
    | false =>
      cases hstep : p.step? with
      | some q =>
        rw [run_of_step h hstep] at henough hle
        rw [run_of_step h hstep, run_of_step h hstep]
        rw [← now_of_step? hstep] at hle
        exact ih q (step?_decreases hstep) henough hle
      | none =>
        cases hnext : p.next? with
        | none =>
          rw [run_of_stuck h hstep hnext, h] at henough
          cases henough
        | some u =>
          cases hq : (p.atTime u).step? with
          | none => exact absurd hq (step?_atTime hnext)
          | some q =>
            have hnow : q.now = u := now_of_step? hq
            have hless : rank.rel q p := step?_decreases (p := p.atTime u) hq
            rw [run_of_time h hstep hnext rfl hq] at henough hle
            -- the run goes on at `u`, so what is in time at its end is so there
            have hu : u ≤ p.now.wakeUp l := hnow ▸ (now_le_run enough none q).trans hle
            rw [run_of_time h hstep hnext (isBeyond_eq_false_iff.2 hu) hq,
              run_of_time h hstep hnext rfl hq]
            rw [← wakeUp_of_next? hnext hu, ← hnow] at hle
            exact ih q hless henough hle

/-- **Any other run stops at the limit**, and not enough has been seen of it; what is enough has nothing to
do with the clock. -/
theorem run_of_late (enough : Pool → Bool) (hclock : ∀ p t, enough (atTime p t) = enough p)
    (hlate : enough (p.run enough none) = true → p.now.wakeUp l < (p.run enough none).now) :
    enough (p.run enough (some l)) = false ∧ (p.run enough (some l)).now = p.now.wakeUp l := by
  induction p using rank.wf.induction with
  | _ p ih =>
    cases h : enough p with
    | true =>
      rw [run_of_enough h] at hlate
      exact absurd (Time.le_wakeUp _ _) (hlate h).not_ge
    | false =>
      cases hstep : p.step? with
      | some q =>
        rw [run_of_step h hstep] at hlate ⊢
        rw [← now_of_step? hstep] at hlate ⊢
        exact ih q (step?_decreases hstep) hlate
      | none =>
        by_cases hlast : ∀ u ∈ p.next?, p.isBeyond (some l) u = true
        · rw [run_of_limit h hstep hlast]
          exact ⟨(hclock _ _).trans h, rfl⟩
        · push Not at hlast
          obtain ⟨u, hnext, hin⟩ := hlast
          have hin : p.isBeyond (some l) u = false := by simpa using hin
          cases hq : (p.atTime u).step? with
          | none => exact absurd hq (step?_atTime hnext)
          | some q =>
            have hnow : q.now = u := now_of_step? hq
            have hless : rank.rel q p := step?_decreases (p := p.atTime u) hq
            rw [run_of_time h hstep hnext rfl hq] at hlate
            rw [run_of_time h hstep hnext hin hq]
            rw [← wakeUp_of_next? hnext (isBeyond_eq_false_iff.1 hin), ← hnow] at hlate ⊢
            exact ih q hless hlate

end HealthService.Pool
