import HealthService.Server.Settings
import HealthService.Service.Basic
import HealthService.Tls.Identity

/-!
# Binding servers

A server is planned first: where it listens, with which service, and how it identifies itself if it
speaks TLS. `ServerPlan.bind` makes a server of the plan. The service must be there, then the files for
TLS must be in order, and only then is the address taken.
-/

namespace HealthService

/-- What is to become a server. -/
structure ServerPlan (σ : Type) where
  address : Endpoint
  service : Option (Service σ) := none
  tls : Option Config.Tls := none
  settings : ServerSettings := {}

/-- A server that has its address. -/
structure Server (σ : Type) where
  address : Endpoint
  service : Service σ
  identity : Option ServerIdentity
  settings : ServerSettings

/-- Why there is no server. -/
inductive BindError where
  | noService
  | tls (error : TlsError)
  | listen (address : Endpoint) (error : OsError)
  deriving DecidableEq, Repr

/-- What went wrong, and then its causes from the outermost to the innermost. -/
def BindError.chain : BindError → List String
  | .noService => ["handler must be set via with_handler()"]
  | .tls error => "Failed to load TLS config" :: error.chain
  | .listen address error => ["Failed to bind " ++ address.print, error.message]

/-- What the surroundings of a process hold ready. -/
structure Surroundings where
  files : String → FileState
  /-- Why nobody can listen on an address, if so. -/
  refusal : Endpoint → Option OsError

namespace ServerPlan

variable {σ : Type}

/-- The identity of the server, if it needs one. -/
def identity (p : ServerPlan σ) (files : String → FileState) :
    Except TlsError (Option ServerIdentity) :=
  match p.tls with
  | some t => (t.load files).map some
  | none => .ok none

/-- Makes a server. -/
def bind (p : ServerPlan σ) (s : Surroundings) : Except BindError (Server σ) :=
  match p.service with
  | none => .error .noService
  | some service =>
    match p.identity s.files with
    | .error e => .error (.tls e)
    | .ok identity =>
      match s.refusal p.address with
      | some e => .error (.listen p.address e)
      | none => .ok ⟨p.address, service, identity, p.settings⟩

end ServerPlan

/-- Whether a server speaks TLS. -/
def Server.isSecure {σ : Type} (s : Server σ) : Bool := s.identity.isSome

/-- The server that a configuration asks for. -/
def Config.Server.plan {σ : Type} (s : Config.Server) (service : Service σ) : ServerPlan σ where
  address := s.address
  service := some service
  tls := s.tls
  settings := s.settings

end HealthService
