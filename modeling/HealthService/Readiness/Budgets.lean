import HealthService.Config.Basic
import HealthService.Time.Duration

/-!
# Time budgets

How long an evaluation of all checks may take, and how long each of them. A budget of zero is none.
-/

namespace HealthService

/-- The budgets of an evaluation. -/
structure Budgets where
  overall : Duration
  perCheck : Option Duration
  deriving DecidableEq, Repr

namespace Budgets

/-- Two seconds for all checks and 800 milliseconds for each. -/
def standard : Budgets := ⟨.ofSeconds 2, some (.ofMillis 800)⟩

/-- No bound at all. -/
def unbounded : Budgets := ⟨0, none⟩

/-- The bound on a single check, if there is one. -/
def checkBound (b : Budgets) : Option Duration := b.perCheck.filter (· ≠ 0)

end Budgets

/-- The budgets that a configuration sets. -/
def Config.Health.budgets (h : Config.Health) : Budgets where
  overall := .ofMillis h.overallMillis.toNat
  perCheck := (some (Duration.ofMillis h.perCheckMillis.toNat)).filter (· ≠ 0)

end HealthService
