import HealthService.Format.Basic

/-!
# The status of a check

A check is either in order or not, and a group of checks is in order when each of them is.
-/

namespace HealthService

/-- Whether something is in order. -/
inductive Status where
  | ok
  | error
  deriving DecidableEq, Repr

namespace Status

/-- Whether the status is `ok`. -/
def isOk : Status → Bool
  | .ok => true
  | .error => false

/-- The name of a status in documents, labels and messages. -/
def name : Status → String
  | .ok => "ok"
  | .error => "error"

/-- The status of a group: `ok` unless one of its members is not. -/
def aggregate (statuses : List Status) : Status :=
  if statuses.all isOk then .ok else .error

/-- How a status stands in a document. -/
def format : Format Status := .choice [("ok", .ok), ("error", .error)] name

theorem aggregate_eq_ok_iff (statuses : List Status) :
    aggregate statuses = .ok ↔ ∀ s ∈ statuses, s = .ok := by
  unfold aggregate
  constructor
  · intro h s hs
    split at h
    · rename_i hall
      have := List.all_eq_true.mp hall s hs
      cases s <;> simp_all [isOk]
    · cases h
  · intro h
    rw [if_pos]
    exact List.all_eq_true.mpr fun s hs => by rw [h s hs]; rfl

end Status

end HealthService
