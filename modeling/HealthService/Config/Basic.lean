import HealthService.Format.Basic
import HealthService.Net.Address
import HealthService.Time.Duration
import HealthService.Url.Basic

/-!
# Configuration

What an operator may set, section by section. Every section and nearly every member may be left out;
the fields' defaults say what holds then, and `Config.format` says how a configuration stands in a
document.

A bound of zero means that there is no bound.
-/

namespace HealthService

/-- The files of the certificate and of its key. -/
structure Config.Tls where
  certPath : String
  keyPath : String
  deriving DecidableEq, Repr

/-- Where the server listens and how patient it is. -/
structure Config.Server where
  host : IpAddress := .v4 0 0 0 0
  port : UInt16 := 8080
  shutdownSeconds : UInt64 := 20
  readHeaderSeconds : UInt64 := 10
  writeSeconds : UInt64 := 10
  idleSeconds : UInt64 := 120
  /-- The server speaks HTTPS if this is given. -/
  tls : Option Config.Tls := none
  deriving DecidableEq, Repr

/-- A probe of another service over HTTP. -/
structure Config.Probe where
  name : String
  url : Url
  expectedStatus : Option UInt16 := none
  deriving DecidableEq, Repr

/-- Who the service is and what it depends on. -/
structure Config.Health where
  version : String := "0.1.0"
  environment : String := "development"
  overallMillis : UInt64 := 2000
  perCheckMillis : UInt64 := 800
  checks : List Config.Probe := []
  deriving DecidableEq, Repr

/-- Whom to let in. -/
structure Config.Auth where
  username : String
  password : String
  realm : Option String := none
  deriving DecidableEq, Repr

/-- Where metrics are to be had. -/
structure Config.Metrics where
  enabled : Bool := false
  port : UInt16 := 9090
  path : String := "/metrics"
  deriving DecidableEq, Repr

/-- The form of log lines. -/
inductive LogFormat where
  | text
  | json
  deriving DecidableEq, Repr

/-- How to log. -/
structure Config.Logging where
  style : LogFormat := .text
  deriving DecidableEq, Repr

/-- A configuration. -/
structure Config where
  server : Config.Server := {}
  health : Config.Health := {}
  auth : Option Config.Auth := none
  metrics : Config.Metrics := {}
  logging : Config.Logging := {}
  deriving DecidableEq, Repr

namespace Config

/-! ## Documents -/

/-- An address as a text. -/
def addressFormat : Format IpAddress :=
  .parsed "IP address"
    (fun s => match IpAddress.parse? s.toList with
      | some a => .ok a
      | none => .error "invalid IP address syntax")
    (fun a => String.ofList a.print)

/-- The path of a file as a text. -/
def pathFormat : Format String := .parsed "path string" .ok id

/-- A URL as a text. -/
def urlFormat : Format Url :=
  .parsed "a string representing an URL"
    (fun s => match Url.parse s.toList with
      | .ok u => .ok u
      | .error e => .error (e.message ++ ": " ++ Quoted.ofString s))
    Url.toText

/-- How the files of a certificate stand in a document. -/
def Tls.format : Format Tls :=
  .record "TlsConfig"
    (.required "cert_path" pathFormat <| .required "key_path" pathFormat .nil)
    (fun (cert, key, _) => ⟨cert, key⟩)
    (fun t => (t.certPath, t.keyPath, ()))

/-- How the server's section stands in a document. -/
def Server.format : Format Server :=
  .record "ServerConfig"
    (.withDefault "host" addressFormat (.v4 0 0 0 0) <|
      .withDefault "port" .uint16 8080 <|
      .withDefault "shutdown_timeout_secs" .uint64 20 <|
      .withDefault "read_header_timeout_secs" .uint64 10 <|
      .withDefault "write_timeout_secs" .uint64 10 <|
      .withDefault "idle_timeout_secs" .uint64 120 <|
      .withDefault "tls" (.optional Tls.format) none .nil)
    (fun (host, port, shutdown, readHeader, write, idle, tls, _) =>
      ⟨host, port, shutdown, readHeader, write, idle, tls⟩)
    (fun s => (s.host, s.port, s.shutdownSeconds, s.readHeaderSeconds, s.writeSeconds,
      s.idleSeconds, s.tls, ()))

/-- How a probe stands in a document. -/
def Probe.format : Format Probe :=
  .record "HttpCheckConfig"
    (.required "name" .text <|
      .required "url" urlFormat <|
      .withDefault "expected_status" (.optional .uint16) none .nil)
    (fun (name, url, expected, _) => ⟨name, url, expected⟩)
    (fun p => (p.name, p.url, p.expectedStatus, ()))

/-- How the section on checks stands in a document. -/
def Health.format : Format Health :=
  .record "HealthConfig"
    (.withDefault "version" .text "0.1.0" <|
      .withDefault "environment" .text "development" <|
      .withDefault "overall_timeout_ms" .uint64 2000 <|
      .withDefault "per_check_timeout_ms" .uint64 800 <|
      .withDefault "checks" (.list Probe.format) [] .nil)
    (fun (version, environment, overall, perCheck, checks, _) =>
      ⟨version, environment, overall, perCheck, checks⟩)
    (fun h => (h.version, h.environment, h.overallMillis, h.perCheckMillis, h.checks, ()))

/-- How the section on access stands in a document. -/
def Auth.format : Format Auth :=
  .record "AuthConfig"
    (.required "username" .text <|
      .required "password" .text <|
      .withDefault "realm" (.optional .text) none .nil)
    (fun (username, password, realm, _) => ⟨username, password, realm⟩)
    (fun a => (a.username, a.password, a.realm, ()))

/-- How the section on metrics stands in a document. -/
def Metrics.format : Format Metrics :=
  .record "MetricsConfig"
    (.withDefault "enabled" .bool false <|
      .withDefault "port" .uint16 9090 <|
      .withDefault "path" .text "/metrics" .nil)
    (fun (enabled, port, path, _) => ⟨enabled, port, path⟩)
    (fun m => (m.enabled, m.port, m.path, ()))

/-- How the form of log lines stands in a document. -/
def logFormat : Format LogFormat :=
  .choice [("text", .text), ("json", .json)] (fun f => match f with
    | .text => "text"
    | .json => "json")

/-- How the section on logging stands in a document. -/
def Logging.format : Format Logging :=
  .record "LoggingConfig" (.withDefault "format" logFormat .text .nil)
    (fun (style, _) => ⟨style⟩)
    (fun l => (l.style, ()))

/-- How a configuration stands in a document. -/
def format : Format Config :=
  .record "Config"
    (.withDefault "server" Server.format {} <|
      .withDefault "health" Health.format {} <|
      .withDefault "auth" (.optional Auth.format) none <|
      .withDefault "metrics" Metrics.format {} <|
      .withDefault "logging" Logging.format {} .nil)
    (fun (server, health, auth, metrics, logging, _) => ⟨server, health, auth, metrics, logging⟩)
    (fun c => (c.server, c.health, c.auth, c.metrics, c.logging, ()))

/-! ## What the numbers mean -/

namespace Server

/-- The address and port on which the server listens. -/
def address (s : Server) : Endpoint := ⟨s.host, s.port⟩

/-- How long a shutdown waits for requests. -/
def shutdownTimeout (s : Server) : Duration := .ofSeconds s.shutdownSeconds.toNat

/-- How long a client may take for the head of a request. -/
def readHeaderTimeout (s : Server) : Duration := .ofSeconds s.readHeaderSeconds.toNat

/-- How long a response may take. -/
def writeTimeout (s : Server) : Duration := .ofSeconds s.writeSeconds.toNat

/-- How long a connection may be silent. -/
def idleTimeout (s : Server) : Duration := .ofSeconds s.idleSeconds.toNat

end Server

end Config

end HealthService
