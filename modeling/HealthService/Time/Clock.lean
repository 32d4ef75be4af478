import HealthService.Time.Duration

/-!
# The clock

A `Time` is the number of nanoseconds since the clock started. Timers are coarser than the clock: a
timer goes off at the first tick, a whole number of milliseconds, that is not before its deadline. Who
waits for a timer therefore goes on at that tick, or at once if it is past, and never too early.

Times beyond a horizon cannot be represented, so a deadline there is no deadline.
-/

namespace HealthService

/-- Nanoseconds since the clock started. -/
abbrev Time := Nat

namespace Time

/-- The tick at which a timer with a deadline goes off. -/
def tick (deadline : Time) : Nat := (deadline + (Duration.perMilli - 1)) / Duration.perMilli

/-- The time of that tick. -/
def goesOff (deadline : Time) : Time := tick deadline * Duration.perMilli

/-- Whether a timer with a deadline has gone off by some time. -/
def hasFired (now deadline : Time) : Bool := tick deadline ≤ now / Duration.perMilli

/-- When somebody goes on who waits from now on for a timer. -/
def wakeUp (now deadline : Time) : Time := max now deadline.goesOff

/-- The first time that cannot be represented. -/
def horizon : Time := 0x8000000000000000 * Duration.perSecond

/-- The time when a duration will have passed, if it can be represented. -/
def after? (now : Time) (d : Duration) : Option Time :=
  if now + d < horizon then some (now + d) else none

/-- Thirty years, for those who want to sleep longer than can be represented. -/
def farFuture : Duration := .ofSeconds (86400 * 365 * 30)

/-- The deadline of a sleep. -/
def sleepUntil (now : Time) (d : Duration) : Time := (after? now d).getD (now + farFuture)

/-- A timer has gone off from its tick on. -/
theorem hasFired_iff {now deadline : Time} : hasFired now deadline = true ↔ deadline.goesOff ≤ now := by
  rw [hasFired, decide_eq_true_iff, goesOff, Nat.le_div_iff_mul_le (by decide)]

/-- A tick is never before the deadline, ... -/
theorem le_goesOff (deadline : Nat) : deadline ≤ goesOff deadline := by
  simp only [goesOff, tick, Duration.perMilli]
  omega

/-- ... so that a timer never goes off too early. -/
theorem le_of_hasFired {now deadline : Nat} (h : hasFired now deadline = true) : deadline ≤ now :=
  Nat.le_trans (le_goesOff deadline) (hasFired_iff.1 h)

/-- Waiting for a timer ends when it has gone off. -/
theorem hasFired_wakeUp (now deadline : Nat) : hasFired (wakeUp now deadline) deadline = true :=
  hasFired_iff.2 (Nat.le_max_right _ _)

theorem le_wakeUp (now deadline : Nat) : now ≤ wakeUp now deadline := Nat.le_max_left _ _

end Time

end HealthService
