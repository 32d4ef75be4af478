import HealthService.Check.Status
import HealthService.Time.Duration

/-!
# Metrics

What is counted of checks and readiness: how often each check ended in each status, how long it
took each time, and whether the service was ready when it was last asked.

`Metrics.count` and `Metrics.durations` are the views in terms of which the operations are
described.
-/

namespace HealthService

/-- A table that keeps its keys in the order in which they came. -/
abbrev Table (κ α : Type) := List (κ × α)

namespace Table

variable {κ α : Type} [DecidableEq κ]

/-- Changes the value of a key, which is `zero` if the key is new. -/
def update (key : κ) (zero : α) (f : α → α) : Table κ α → Table κ α
  | [] => [(key, f zero)]
  | (k, a) :: rest => if k = key then (k, f a) :: rest else (k, a) :: update key zero f rest

theorem lookup_update [BEq κ] [LawfulBEq κ] (t : Table κ α) (key other : κ) (zero : α) (f : α → α) :
    (update key zero f t).lookup other
      = if other = key then some (f ((t.lookup key).getD zero)) else t.lookup other := by
  induction t with
  | nil =>
    by_cases h : other = key
    · simp [update, h]
    · have : (other == key) = false := by simpa using h
      simp [update, List.lookup_cons, h, this]
  | cons p rest ih =>
    obtain ⟨k, a⟩ := p
    by_cases hk : k = key
    · subst hk
      by_cases h : other = k
      · simp [update, h]
      · have : (other == k) = false := by simpa using h
        simp [update, List.lookup_cons, h, this]
    · have hk' : (key == k) = false := by simpa using Ne.symm hk
      by_cases h : other = k
      · subst h
        simp [update, hk]
      · have : (other == k) = false := by simpa using h
        simp [update, List.lookup_cons, hk, hk', this, ih]

end Table

/-- What has been counted so far. -/
structure Metrics where
  totals : Table (String × Status) Nat := []
  /-- The durations of each check in their order. -/
  times : Table String (List Duration) := []
  /-- Whether the service was ready when it was last asked. -/
  ready : Bool := false
  deriving DecidableEq, Repr

namespace Metrics

/-- How often a check ended in a status. -/
def count (m : Metrics) (check : String) (status : Status) : Nat :=
  (m.totals.lookup (check, status)).getD 0

/-- How long a check took each time. -/
def durations (m : Metrics) (check : String) : List Duration := (m.times.lookup check).getD []

/-- The value of the gauge for readiness. -/
def gauge (m : Metrics) : Nat := if m.ready then 1 else 0

/-- Counts a check that has ended. -/
def record (m : Metrics) (check : String) (status : Status) (elapsed : Duration) : Metrics where
  totals := m.totals.update (check, status) 0 (· + 1)
  times := m.times.update check [] (· ++ [elapsed])
  ready := m.ready

/-- Makes sure that a total is shown, even if nothing has been counted. -/
def touch (m : Metrics) (check : String) (status : Status) : Metrics :=
  { m with totals := m.totals.update (check, status) 0 id }

/-- Notes whether the service is ready. -/
def setReady (m : Metrics) (status : Status) : Metrics := { m with ready := status.isOk }

theorem count_record (m : Metrics) (check other : String) (status kind : Status)
    (elapsed : Duration) :
    (m.record check status elapsed).count other kind
      = m.count other kind + if (other, kind) = (check, status) then 1 else 0 := by
  simp only [record, count, Table.lookup_update]
  by_cases h : (other, kind) = (check, status)
  · rw [if_pos h, if_pos h, h]
    rfl
  · rw [if_neg h, if_neg h]
    rfl

theorem durations_record (m : Metrics) (check other : String) (status : Status)
    (elapsed : Duration) :
    (m.record check status elapsed).durations other
      = m.durations other ++ if other = check then [elapsed] else [] := by
  simp only [record, durations, Table.lookup_update]
  by_cases h : other = check
  · rw [if_pos h, if_pos h, h]
    rfl
  · rw [if_neg h, if_neg h, List.append_nil]

end Metrics

end HealthService
