import HealthService.Config.Basic

/-!
# How patient a server is

Four timeouts bound what a server does for its clients. Where `bound?` is asked, a timeout of zero means
that there is no bound.
-/

namespace HealthService

/-- The timeouts of a server. -/
structure ServerSettings where
  /-- How long requests may go on when the server is to stop. -/
  shutdownTimeout : Duration := .ofSeconds 20
  /-- How long a client may take for the head of a request. -/
  readHeaderTimeout : Duration := .ofSeconds 10
  /-- How long a response may take. -/
  writeTimeout : Duration := .ofSeconds 10
  /-- How long a connection may be silent. -/
  idleTimeout : Duration := .ofSeconds 120
  deriving DecidableEq, Repr

namespace ServerSettings

/-- The bound that a timeout sets, if it is not zero. -/
def bound? (timeout : Duration) : Option Duration := if timeout = 0 then none else some timeout

/-- How long a client may take for the head of a request, if there is a bound. -/
def headBound (s : ServerSettings) : Option Duration := bound? s.readHeaderTimeout

/-- How long a response may take, if there is a bound. -/
def responseBound (s : ServerSettings) : Option Duration := bound? s.writeTimeout

/-- How long a client may take for a handshake. There always is a bound: a timeout of zero stands for
the usual one. -/
def handshakeTimeout (s : ServerSettings) : Duration :=
  (bound? s.readHeaderTimeout).getD ({ : ServerSettings }).readHeaderTimeout

end ServerSettings

/-- The timeouts in a configuration. -/
def Config.Server.settings (s : Config.Server) : ServerSettings where
  shutdownTimeout := s.shutdownTimeout
  readHeaderTimeout := s.readHeaderTimeout
  writeTimeout := s.writeTimeout
  idleTimeout := s.idleTimeout

end HealthService
