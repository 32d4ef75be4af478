import HealthService.Http.Message
import HealthService.Http.Target
import HealthService.Metrics.Exposition

/-!
# Serving metrics

Metrics are to be had at one path of a server of their own.
-/

namespace HealthService.Metrics

/-- The content type of the exposition. -/
def contentType : String := "text/plain; version=0.0.4"

/-- Answers a request with some target, when the metrics are to be had at a path. The exposition cannot fail,
because it is written to memory and leaves out what would be an error, a family without series; so there is
no answer that says that the metrics are not available. -/
def respond (m : Metrics) (path target : String) : Response :=
  if Target.path target = path then
    { headers := [("content-type", Utf8.ofString contentType)], body := Utf8.ofString m.expose }
  else { status := 404, body := Utf8.ofString "Not Found" }

end HealthService.Metrics
