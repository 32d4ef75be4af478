import HealthService.Check.Status
import HealthService.Time.Calendar
import HealthService.Time.Duration

/-!
# Liveness

A process that answers at all is alive. Its answer says who it is and how long it has been running.
-/

namespace HealthService

/-- Who is alive, and since when. -/
structure LiveResponse where
  status : Status
  version : String := ""
  uptime : String := ""
  host : String := ""
  environment : String := ""
  startedAt : Option DateTime := none
  deriving DecidableEq, Repr

namespace LiveResponse

/-- How a point in time stands in a document. -/
def dateTime : Format DateTime :=
  .parsed "an RFC 3339 formatted date and time string"
    (fun s => match DateTime.parse s.toList with
      | .ok t => .ok t
      | .error e => .error e.message)
    (fun t => String.ofList t.print)

/-- How a liveness response stands in a document. -/
def format : Format LiveResponse :=
  .record "LiveResponse"
    (.required "status" Status.format <|
      .withDefault "version" .text "" <|
      .withDefault "uptime" .text "" <|
      .withDefault "host" .text "" <|
      .withDefault "environment" .text "" <|
      .omitted "started_at" dateTime .nil)
    (fun (status, version, uptime, host, environment, startedAt, _) =>
      ⟨status, version, uptime, host, environment, startedAt⟩)
    (fun r => (r.status, r.version, r.uptime, r.host, r.environment, r.startedAt, ()))

end LiveResponse

/-- What a process knows of itself. -/
structure Liveness where
  version : String
  environment : String
  host : String
  /-- When it began, on the clock that measures durations. -/
  started : Duration
  /-- When it began, on the calendar. -/
  startedAt : DateTime
  deriving DecidableEq, Repr

/-- The response at some time. -/
def Liveness.respond (l : Liveness) (now : Duration) : LiveResponse where
  status := .ok
  version := l.version
  uptime := Duration.describe (now - l.started)
  host := l.host
  environment := l.environment
  startedAt := some l.startedAt

end HealthService
