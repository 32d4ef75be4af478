import HealthService.Format.JsonPrinter
import HealthService.Http.Message
import HealthService.Liveness
import HealthService.Log.Event
import HealthService.Readiness.Response

/-!
# Rendering health responses

Health responses are JSON documents that nobody may store. `renderJson` keeps the status and the
headers even when the document cannot be written; then the body is empty and the failure is logged.
-/

namespace HealthService

/-- The path of the liveness route. -/
def liveRoute : String := "/health/live"

/-- The path of the readiness route. -/
def readyRoute : String := "/health/ready"

/-- A date long past. -/
def pastDate : String := "Thu, 01 Jan 1970 00:00:00 GMT"

/-- The header lines that forbid to store a response. -/
def uncached (h : Headers) : Headers :=
  let h := h.insert "cache-control" (Utf8.ofString "no-store, no-cache")
  let h := h.insert "pragma" (Utf8.ofString "no-cache")
  h.insert "expires" (Utf8.ofString pastDate)

/-- Forbids to store a response. -/
def disableCache (r : Response) : Response := { r with headers := uncached r.headers }

/-- The response with a status and a written document, or with the reason why there is none. -/
def renderJson (status : Nat) (document : Except String (List Char)) (route : String) :
    Response × List Entry :=
  let (body, entries) : Bytes × List Entry := match document with
    | .ok text => (Utf8.encode (text ++ ['\n']), [])
    | .error reason => ([], [⟨.encodingFailed route status reason, []⟩])
  let r := disableCache { status := status, body := body }
  ({ r with headers := r.headers.insert "content-type" (Utf8.ofString "application/json") },
    entries)

/-- The response to a liveness probe. -/
def renderLive (r : LiveResponse) : Response × List Entry :=
  renderJson 200 (.ok (LiveResponse.format.printJson r)) liveRoute

/-- The response to a readiness probe. -/
def renderReady (r : ReadyResponse) : Response × List Entry :=
  renderJson r.statusCode (.ok (ReadyResponse.format.printJson r)) readyRoute

end HealthService
