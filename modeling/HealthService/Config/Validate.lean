import HealthService.Config.Basic
import HealthService.Log.Event
import HealthService.Text.Blank

/-!
# Valid configurations

A document may have the right shape and still make no sense. `Config.validate` tells the first rule
that a configuration breaks; settings of things that are switched off do not matter. Several checks
of one name are allowed, but each of them after the first is worth a warning.
-/

namespace HealthService

/-- The rule that a configuration breaks. -/
inductive ConfigError where
  | zeroPort
  | emptyTlsPath
  | emptyCheckName (index : Nat)
  | unsupportedScheme (name scheme : String)
  | emptyCredentials
  | invalidMetricsPath (path : String)
  | invalidMetricsPort
  deriving DecidableEq, Repr

/-- An error in words. -/
def ConfigError.message : ConfigError → String
  | .zeroPort => "server.port must be non-zero"
  | .emptyTlsPath => "server.tls.cert_path and server.tls.key_path must be non-empty"
  | .emptyCheckName index =>
    "health check #" ++ String.ofList (Decimal.ofNat index) ++ " has an empty name"
  | .unsupportedScheme name scheme =>
    "health check " ++ Quoted.ofString name ++ " must use http or https, got "
      ++ Quoted.ofString scheme
  | .emptyCredentials => "auth.username and auth.password must be non-empty"
  | .invalidMetricsPath path => "metrics.path must start with '/', got " ++ Quoted.ofString path
  | .invalidMetricsPort => "metrics.port must be non-zero and differ from server.port"

namespace Config

/-- The rules on the server. -/
def Server.validate (s : Server) : Except ConfigError Unit :=
  if s.port = 0 then .error .zeroPort
  else match s.tls with
    | some t => if t.certPath = "" ∨ t.keyPath = "" then .error .emptyTlsPath else .ok ()
    | none => .ok ()

/-- The rules on the check at some index. -/
def Probe.validate (index : Nat) (p : Probe) : Except ConfigError Unit :=
  if Blank.isBlank p.name.toList then .error (.emptyCheckName index)
  else if p.url.scheme ≠ "http" ∧ p.url.scheme ≠ "https" then
    .error (.unsupportedScheme p.name p.url.scheme)
  else .ok ()

/-- The rules on checks from some index on, when some names are known already; a name that is known
is worth a warning. -/
def validateChecks : Nat → List String → List Probe → Except ConfigError Unit × List Entry
  | _, _, [] => (.ok (), [])
  | index, seen, p :: ps =>
    match p.validate index with
    | .error e => (.error e, [])
    | .ok _ =>
      let rest := validateChecks (index + 1) (p.name :: seen) ps
      if seen.contains p.name then (rest.1, ⟨.duplicateCheckName p.name, []⟩ :: rest.2) else rest

/-- The rules on credentials. -/
def Auth.validate (a : Auth) : Except ConfigError Unit :=
  if a.username = "" ∨ a.password = "" then .error .emptyCredentials else .ok ()

/-- The rules on metrics, given the port of the server. -/
def Metrics.validate (serverPort : UInt16) (m : Metrics) : Except ConfigError Unit :=
  if !m.enabled then .ok ()
  else if m.path.toList.head? ≠ some '/' then .error (.invalidMetricsPath m.path)
  else if m.port = 0 ∨ m.port = serverPort then .error .invalidMetricsPort
  else .ok ()

/-- The first rule that a configuration breaks, if any, and the warnings on the way to it. -/
def validate (c : Config) : Except ConfigError Unit × List Entry :=
  match c.server.validate with
  | .error e => (.error e, [])
  | .ok _ =>
    let checks := validateChecks 0 [] c.health.checks
    let rest : Except ConfigError Unit := do
      checks.1
      match c.auth with
      | some a => a.validate
      | none => .ok ()
      c.metrics.validate c.server.port
    (rest, checks.2)

end Config

end HealthService
