import HealthService.App
import HealthService.Config.Load
import HealthService.Config.Probes
import HealthService.Log.Filter
import HealthService.Server.Bind

/-!
# Launching the program

The program reads its configuration and then brings up what this asks for, one thing after another:
logging, the endpoint for metrics, the probes, the health handler, the server. The first thing that
fails ends the launch. Nothing is logged before the form of the log is known.
-/

namespace HealthService

/-- Why a launch failed. -/
inductive LaunchError where
  | config (error : LoadError)
  | metrics (error : OsError)
  | probe (error : ProbeError)
  | bind (error : BindError)

/-- What went wrong, and then its causes from the outermost to the innermost. -/
def LaunchError.chain : LaunchError → List String
  | .config error => error.chain
  | .metrics error => ["error creating server listener: " ++ error.message, error.message]
  | .probe error => error.chain
  | .bind error => error.chain

/-- The name under which the program logs. -/
def logSource : String := "vital"

/-- The file of the configuration if none is named. -/
def defaultConfigFile : String := "config.yaml"

/-- Where metrics are to be had. -/
structure MetricsPlace where
  address : Endpoint
  path : String
  deriving DecidableEq, Repr

/-- What is there after a launch. -/
structure Program where
  config : Config
  metrics : Option MetricsPlace
  probes : List HttpProbe
  server : Server HealthState

/-- How a launch went: what it logged, and in which form. -/
structure Launch where
  style : Option LogFormat := none
  entries : List Entry := []
  result : Except LaunchError Program

namespace Config

/-- Where a configuration asks for metrics. -/
def metricsPlace (c : Config) : Option MetricsPlace :=
  if c.metrics.enabled then some ⟨⟨c.server.host, c.metrics.port⟩, c.metrics.path⟩ else none

/-- Brings up the server. -/
def bringUpServer (c : Config) (s : Surroundings) (self : Identity) (check : HttpProbe → Checker)
    (probes : List HttpProbe) : List Entry × Except LaunchError Program :=
  let place := c.metricsPlace
  let checkers := probes.map check
  let entries := HealthHandler.buildEntries (c.readiness checkers place.isSome)
    ++ [⟨.serverStarting c.server.address.print c.server.tls.isSome, []⟩]
  match (c.server.plan (c.service checkers place.isSome self)).bind s with
  | .error e => (entries, .error (.bind e))
  | .ok server =>
    (entries ++ [⟨.serverListening server.address.print server.isSecure, []⟩],
      .ok ⟨c, place, probes, server⟩)

/-- Brings up the probes, then the server. -/
def bringUpProbes (c : Config) (s : Surroundings) (self : Identity) (check : HttpProbe → Checker) :
    List Entry × Except LaunchError Program :=
  match c.health.probes with
  | .error e => ([], .error (.probe e))
  | .ok probes => c.bringUpServer s self check probes

/-- Brings up the endpoint for metrics, then the rest. -/
def bringUp (c : Config) (s : Surroundings) (self : Identity) (check : HttpProbe → Checker) :
    List Entry × Except LaunchError Program :=
  match c.metricsPlace with
  | none => c.bringUpProbes s self check
  | some place =>
    match s.refusal place.address with
    | some e => ([], .error (.metrics e))
    | none =>
      let (entries, result) := c.bringUpProbes s self check
      (⟨.metricsListening place.address.print place.path, []⟩ :: entries, result)

end Config

/-- Launches the program with a configuration file. -/
def launch (file : String) (s : Surroundings) (self : Identity) (check : HttpProbe → Checker) :
    Launch :=
  match (Config.load file (s.files file)).1 with
  | .error e => { result := .error (.config e) }
  | .ok c =>
    let (entries, result) := c.bringUp s self check
    ⟨some c.logging.style, ⟨.configLoaded file, []⟩ :: entries, result⟩

/-- What a launch logs as far as a filter admits it. -/
def Launch.logged (l : Launch) (f : LogFilter) : List Entry :=
  l.entries.filter fun e => f.admits logSource e.event

end HealthService
