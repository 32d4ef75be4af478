import HealthService.Config.Basic
import HealthService.Handler
import HealthService.Service.Layer

/-!
# The health service

What a configuration describes: the health handler within the layers for recovery, traces, logging
and, if so configured, access.
-/

namespace HealthService

/-- What a process knows of itself. -/
structure Identity where
  host : String
  started : Time
  startedAt : DateTime
  deriving DecidableEq, Repr

namespace Config

/-- The credentials that a configuration asks for. -/
def Auth.credentials (a : Auth) : Credentials := .new a.username a.password a.realm

/-- The layers around the handler. -/
def layers (c : Config) : List Layer :=
  [.recovery, .trace, .logger] ++ (c.auth.map fun a => Layer.auth a.credentials).toList

/-- Finds out whether the service is ready by some checkers. -/
def readiness (c : Config) (checkers : List Checker) (metered : Bool) : Readiness where
  checkers := checkers
  budgets := c.health.budgets
  version := c.health.version
  environment := c.health.environment
  metered := metered

/-- The handler of a configuration. -/
def handler (c : Config) (checkers : List Checker) (metered : Bool) (self : Identity) :
    HealthHandler where
  live := ⟨c.health.version, c.health.environment, self.host, self.started, self.startedAt⟩
  ready := c.readiness checkers metered

/-- The service of a configuration. -/
def service (c : Config) (checkers : List Checker) (metered : Bool) (self : Identity) :
    Service HealthState :=
  Layer.stack c.layers (c.handler checkers metered self).service

end Config

end HealthService
