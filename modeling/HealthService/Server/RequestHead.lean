import HealthService.Server.Settings
import HealthService.Time.Clock

/-!
# Heads of requests

Before a server can answer, somebody has to read the head of the request, its first line and its header
lines. The server leaves that to a `HeadReader` and only says how long it may take, if there is a bound.
-/

namespace HealthService

/-- How the reading of a head ends. -/
inductive HeadEnd where
  | read
  | timedOut
  deriving DecidableEq, Repr

/-- Somebody who reads heads and is given a bound on that, or none: when and how the reading ends that has
begun at some time, if ever. The client needs some time for it, or never comes to its end. -/
abbrev HeadReader := Option Duration → Time → Option Duration → Option (Time × HeadEnd)

namespace HeadReader

/-- Who is given no bound waits for the client however long that takes. -/
def Patient (reader : HeadReader) : Prop :=
  ∀ begun needs, reader none begun needs = needs.map fun d => (begun + d, .read)

/-- Reads heads with a timer for the bound. -/
def timed : HeadReader := fun bound begun needs =>
  match bound with
  | none => needs.map fun d => (begun + d, .read)
  | some bound =>
    let due := begun.wakeUp (begun.sleepUntil bound)
    match needs with
    | some d => some (if begun + d ≤ due then (begun + d, .read) else (due, .timedOut))
    | none => some (due, .timedOut)

theorem patient_timed : timed.Patient := fun _ _ => rfl

end HeadReader

/-- How a server has a head read. -/
def ServerSettings.readHead (s : ServerSettings) (reader : HeadReader) (begun : Time)
    (needs : Option Duration) : Option (Time × HeadEnd) :=
  reader s.headBound begun needs

end HealthService
