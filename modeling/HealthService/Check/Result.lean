import HealthService.Check.Status

/-!
# Results of checks

A checker reports an outcome. What a readiness response says of the check is its result: the name of
the checker, the status and message after the context has been consulted, and how long it took.
-/

namespace HealthService

/-- What a checker reports. -/
structure CheckOutcome where
  status : Status
  message : Option String := none
  deriving DecidableEq, Repr

/-- What a response says of a check. -/
structure CheckResult where
  name : String
  status : Status
  message : Option String := none
  duration : String
  deriving DecidableEq, Repr

/-- How a result stands in a document. -/
def CheckResult.format : Format CheckResult :=
  .record "CheckResult"
    (.required "name" .text <|
      .required "status" Status.format <|
      .omitted "message" .text <|
      .required "duration" .text .nil)
    (fun (name, status, message, duration, _) => ⟨name, status, message, duration⟩)
    (fun r => (r.name, r.status, r.message, r.duration, ()))

end HealthService
