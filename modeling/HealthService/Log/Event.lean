import HealthService.Check.Status
import HealthService.Time.Duration

/-!
# Log events

Everything that is worth logging is an `Event` with a level, a message and named fields. An `Entry`
is an event together with the spans that enclosed it, outermost first.
-/

namespace HealthService

/-- Why a context has ended. -/
inductive ContextError where
  | canceled
  | deadlineExceeded
  deriving DecidableEq, Repr

/-- The end of a context in words. -/
def ContextError.message : ContextError → String
  | .canceled => "context canceled"
  | .deadlineExceeded => "context deadline exceeded"

/-- How important an event is. -/
inductive Level where
  | debug
  | info
  | warn
  | error
  deriving DecidableEq, Repr

/-- The name of a level. -/
def Level.name : Level → String
  | .debug => "DEBUG"
  | .info => "INFO"
  | .warn => "WARN"
  | .error => "ERROR"

/-- The value of a field. -/
inductive FieldValue where
  | text (s : String)
  | number (n : Nat)
  | flag (b : Bool)
  /-- How long something took. -/
  | elapsed (d : Duration)
  deriving DecidableEq, Repr

/-- What is worth logging. -/
inductive Event where
  | lateOk (check : String) (err : ContextError)
  | checkFinished (check : String) (status : Status) (elapsed : Duration)
  | readinessOk (checks : Nat)
  | readinessFailed (failed : List String)
  | duplicateChecker (check : String)
  | handlerConfigured (checks : Nat) (overall : Duration) (perCheck : Option Duration)
  | duplicateCheckName (check : String)
  | invalidTraceparent (err : String)
  | request (method path : String) (status : Nat) (took : Duration) (remote userAgent : String)
  | panicRecovered (error method path : String)
  | idleClosed (remote : String) (timeout : Duration)
  | reservedExtension (key : String)
  | encodingFailed (route : String) (status : Nat) (err : String)
  | configLoaded (file : String)
  | metricsListening (address path : String)
  | serverStarting (address : String) (tls : Bool)
  | serverListening (address : String) (tls : Bool)
  | shutdownSignal (signal : String)
  | serverStopping (timeout : Duration)
  | serverStopped
  | responseTimedOut
  | handshakeFailed (remote err : String)
  | handshakeTimedOut (remote : String)
  deriving DecidableEq, Repr

namespace Event

/-- How important an event is. -/
def level : Event → Level
  | .lateOk .. | .duplicateChecker .. | .duplicateCheckName .. | .responseTimedOut => .warn
  | .checkFinished .. | .readinessOk .. | .invalidTraceparent .. | .idleClosed ..
  | .reservedExtension .. | .handshakeFailed .. | .handshakeTimedOut .. => .debug
  | .readinessFailed .. | .handlerConfigured .. | .request .. | .configLoaded ..
  | .metricsListening .. | .serverStarting .. | .serverListening .. | .shutdownSignal ..
  | .serverStopping .. | .serverStopped => .info
  | .panicRecovered .. | .encodingFailed .. => .error

/-- The message of an event. -/
def message : Event → String
  | .lateOk .. => "check reported ok after its context ended"
  | .checkFinished .. => "check finished"
  | .readinessOk .. => "readiness ok"
  | .readinessFailed .. => "readiness failed"
  | .duplicateChecker .. => "duplicate checker name"
  | .handlerConfigured .. => "health handler configured"
  | .duplicateCheckName .. => "duplicate health check name in config"
  | .invalidTraceparent .. => "ignoring invalid traceparent"
  | .request .. => "http request"
  | .panicRecovered .. => "panic recovered"
  | .idleClosed .. => "closing idle connection"
  | .reservedExtension .. => "ignoring problem extension that shadows a standard member"
  | .encodingFailed .. => "failed to encode health response"
  | .configLoaded file => "Loaded configuration from: " ++ file
  | .metricsListening address path => "Metrics server listening on http://" ++ address ++ path
  | .serverStarting address _ => "Starting health server on " ++ address
  | .serverListening address tls =>
    (if tls then "HTTPS" else "HTTP") ++ " server listening on " ++ address
  | .shutdownSignal _ => "received shutdown signal"
  | .serverStopping _ => "stopping server"
  | .serverStopped => "server stopped gracefully"
  | .responseTimedOut => "response not produced within the write timeout"
  | .handshakeFailed .. => "TLS handshake failed"
  | .handshakeTimedOut _ => "TLS handshake timed out"

/-- The fields of an event. -/
def fields : Event → List (String × FieldValue)
  | .lateOk check err => [("check", .text check), ("err", .text err.message)]
  | .checkFinished check status elapsed =>
    [("check", .text check), ("status", .text status.name), ("elapsed", .text elapsed.describe)]
  | .readinessOk checks => [("checks", .number checks)]
  | .readinessFailed failed => [("failed", .text (Quoted.ofStrings failed))]
  | .duplicateChecker check | .duplicateCheckName check => [("check", .text check)]
  | .handlerConfigured checks overall perCheck =>
    [("checks", .number checks), ("overall_timeout", .text overall.describe),
      ("per_check_timeout", .text (Duration.describeOption perCheck))]
  | .invalidTraceparent err => [("err", .text err)]
  | .request method path status took remote userAgent =>
    [("method", .text method), ("path", .text path), ("status", .number status),
      ("duration", .elapsed took), ("remote_addr", .text remote), ("user_agent", .text userAgent)]
  | .panicRecovered error method path =>
    [("error", .text error), ("method", .text method), ("path", .text path)]
  | .idleClosed remote timeout => [("remote", .text remote), ("timeout", .text timeout.describe)]
  | .reservedExtension key => [("key", .text key)]
  | .encodingFailed route status err =>
    [("route", .text route), ("status", .number status), ("err", .text err)]
  | .configLoaded _ | .metricsListening .. | .serverListening .. | .serverStopped
  | .responseTimedOut => []
  | .serverStarting _ tls => [("tls", .flag tls)]
  | .shutdownSignal signal => [("signal", .text signal)]
  | .serverStopping timeout => [("timeout", .text timeout.describe)]
  | .handshakeFailed remote err => [("remote", .text remote), ("error", .text err)]
  | .handshakeTimedOut remote => [("remote", .text remote)]

end Event

/-- What is known of all events that happen while a request is handled. -/
structure Span where
  traceId : String
  spanId : String
  traceFlags : String
  deriving DecidableEq, Repr

/-- An event and the spans around it, outermost first. -/
structure Entry where
  event : Event
  spans : List Span := []
  deriving DecidableEq, Repr

/-- Encloses entries in one more span. -/
def Span.enclose (span : Span) (entries : List Entry) : List Entry :=
  entries.map fun e => { e with spans := span :: e.spans }

end HealthService
