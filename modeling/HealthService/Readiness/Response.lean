import HealthService.Check.Result

/-!
# Readiness responses

A readiness response lists the results of all checks and says whether the service as a whole is
ready. Version and environment are not written when they are empty.
-/

namespace HealthService

/-- Whether the service is ready, and why. -/
structure ReadyResponse where
  status : Status
  checks : List CheckResult
  version : String := ""
  environment : String := ""
  deriving DecidableEq, Repr

namespace ReadyResponse

/-- How a readiness response stands in a document. -/
def format : Format ReadyResponse :=
  .record "ReadyResponse"
    (.required "status" Status.format <|
      .required "checks" (.list CheckResult.format) <|
      .cons "version" .text (some "") String.isEmpty <|
      .cons "environment" .text (some "") String.isEmpty .nil)
    (fun (status, checks, version, environment, _) => ⟨status, checks, version, environment⟩)
    (fun r => (r.status, r.checks, r.version, r.environment, ()))

/-- The status code that goes with a response: 200 if the service is ready, else 503. -/
def statusCode (r : ReadyResponse) : Nat := if r.status.isOk then 200 else 503

/-- The names of the checks that are not in order. -/
def failed (r : ReadyResponse) : List String :=
  (r.checks.filter fun c => !c.status.isOk).map CheckResult.name

end ReadyResponse

end HealthService
