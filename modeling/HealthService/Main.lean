import HealthService.ErrorReport
import HealthService.Http.Target
import HealthService.Http.Wire
import HealthService.Log.Line
import HealthService.Metrics.Serving
import HealthService.Observation
import HealthService.Server.Shutdown
import Std.Async.DNS
import Std.Async.Signal
import Std.Async.System
import Std.Http.Server

/-!
# The program

Reads the configuration, listens, and answers until a signal comes. What to do is decided elsewhere; here
it is done.

Connections are kept by the HTTP server of the standard library, which speaks no TLS: a configuration that
asks for TLS is checked like any other, and then refused.
-/

namespace HealthService.Main

open Std.Async

/-! ## The surroundings -/

/-- What is found at a path. -/
def fileState (path : String) : IO FileState := do
  try
    return .content (← IO.FS.readBinFile path).toList
  catch e =>
    match e with
    | .noFileOrDirectory .. => return .missing
    | _ => return .directory

/-- The files that a launch may look at: the configuration and those that it names. -/
def readFiles (config : String) : IO (List (String × FileState)) := do
  let file ← fileState config
  let tls := match (Config.load config file).1 with
    | .ok c => c.server.tls
    | .error _ => none
  let others ← (tls.map fun t => [t.certPath, t.keyPath]).getD [] |>.mapM fun path =>
    return (path, ← fileState path)
  return (config, file) :: others

/-- An address as sockets know it. -/
def socketAddress (e : Endpoint) : Std.Net.SocketAddress :=
  match e.address with
  | .v4 a b c d => .v4 ⟨.ofParts a b c d, e.port⟩
  | .v6 gs _ =>
    let g (i : Nat) : UInt16 := gs.getD i 0
    .v6 ⟨.ofParts (g 0) (g 1) (g 2) (g 3) (g 4) (g 5) (g 6) (g 7), e.port⟩

/-- The address of a peer. -/
def endpointOf : Std.Net.SocketAddress → Endpoint
  | .v4 a =>
    let o := a.addr.octets
    ⟨.v4 o[0] o[1] o[2] o[3], a.port⟩
  | .v6 a =>
    let s := a.addr.segments
    ⟨.v6 s.toList (by simp), a.port⟩

/-- Whether somebody else listens on an address already. -/
def isTaken (e : Endpoint) : IO Bool := do
  try
    let socket ← TCP.Socket.Server.mk
    socket.bind (socketAddress e)
    socket.listen 1
    return false
  catch _ => return true

/-- The addresses on which nobody can listen. -/
def takenAddresses (file : String) (state : FileState) : IO (List Endpoint) := do
  match (Config.load file state).1 with
  | .error _ => return []
  | .ok c =>
    let addresses := c.server.address :: (c.metricsPlace.map MetricsPlace.address).toList
    addresses.filterM isTaken

/-- The current time on the calendar. -/
def calendarNow : IO DateTime := do
  let t := (← Std.Time.Timestamp.now).toNanosecondsSinceUnixEpoch.val
  return ⟨t / 1000000000, (t % 1000000000).toNat⟩

/-- A random word. -/
def randomWord : IO UInt64 := do
  return (← IO.getRandomBytes 8).toList.foldl (fun n b => n * 256 + b.toUInt64) 0

/-- What chance decides about a trace. -/
def randomDraw : IO TraceContext.Draw := do
  let high ← randomWord
  let low ← randomWord
  let mut words : List UInt64 := []
  repeat
    words := words ++ [← randomWord]
    if let some draw := TraceContext.Draw.ofDrawn? high low words then
      return draw
  return .ofWords high low 1

/-! ## The log -/

/-- Where the log goes. -/
structure Logger where
  style : LogFormat
  filter : LogFilter

/-- Writes what the filter admits. -/
def Logger.write (l : Logger) (entries : List Entry) : IO Unit := do
  let time ← calendarNow
  for e in entries do
    if l.filter.admits logSource e.event then
      IO.println <| match l.style with
        | .json => e.toJsonLine time logSource
        | .text => e.toTextLine time logSource

/-! ## Probes -/

/-- Asks a service at an address. -/
def ask (url : Url) (address : Std.Net.SocketAddress) : Async HttpProbe.Reply := do
  let socket ← TCP.Socket.Client.mk
  try
    socket.connect address
  catch _ => return .error (.connect url.toText .connectionRefused)
  try
    socket.send ⟨(Wire.request url).toArray⟩
    let mut reply : Bytes := []
    repeat
      match ← socket.recv? 4096 with
      | none => break
      | some chunk =>
        reply := reply ++ chunk.toList
        if (Wire.status? reply).isSome then break
    match Wire.status? reply with
    | some code => return .ok code
    | none => return .error (.lost url.toText "connection closed before message completed")
  catch e => return .error (.lost url.toText (toString e))

/-- The first address of a host. -/
def addressOf (url : Url) : Async (Option Std.Net.SocketAddress) := do
  let some host := url.host | return none
  let some port := url.effectivePort | return none
  let addresses ← DNS.getAddrInfo (String.ofList host.print) ""
  return addresses[0]?.map fun
    | .v4 a => .v4 ⟨a, port⟩
    | .v6 a => .v6 ⟨a, port⟩

/-- Asks the service of a probe, and tells how long that took. -/
def observe (probe : HttpProbe) : Async (Option (Duration × HttpProbe.Reply)) := do
  let began ← IO.monoNanosNow
  let reply ← try
      match ← addressOf probe.url with
      | some address => ask probe.url address
      | none => pure (.error (.lost probe.url.toText "no address"))
    catch e => pure (.error (.lost probe.url.toText (toString e)))
  return some ((← IO.monoNanosNow) - began, reply)

/-- Waits for a reply only for so long. -/
def observeWithin (patience : Option Duration) (probe : HttpProbe) :
    Async (Option (Duration × HttpProbe.Reply)) :=
  match patience with
  | none => observe probe
  | some d =>
    Async.race (observe probe) do
      sleep (.ofNat (d / Duration.perMilli + 1))
      return none

/-! ## Requests -/

/-- What all requests share. -/
structure Shared where
  program : Program
  self : Identity
  logger : Logger
  metrics : IO.Ref Metrics

/-- A request as it came. -/
def requestOf (q : Std.Http.Request Std.Http.Body.Stream) : Request where
  method := toString q.line.method
  path := Target.path (toString q.line.uri)
  headers := q.line.headers.toList.map fun h => (h.1.value, Utf8.ofString h.2.value)
  remote := (q.extensions.get Std.Http.Server.RemoteAddr).map fun r => endpointOf r.addr

/-- A response as it goes. -/
def send (x : Response) : Async (Std.Http.Response Std.Http.Body.Full) := do
  let status := (Std.Http.Status.ofCode none (UInt16.ofNat x.status)).getD .internalServerError
  let headers := x.headers.foldl
    (fun h l => (h.insert? l.1 ((Utf8.toString? l.2).getD "")).getD h) Std.Http.Headers.empty
  ((Std.Http.Response.new.status status).headers headers).fromBytes ⟨x.body.toArray⟩

/-- The response to a call that brought none. -/
def noResponse : Response := { status := 500 }

/-- Answers a request. -/
def Shared.answer (s : Shared) (q : Request) : Async Response := do
  let draw ← randomDraw
  let call : Call := { request := q, draws := fun _ => draw }
  let now ← IO.monoNanosNow
  let state (m : Metrics) : HealthState := { pool := { now := now }, metrics := m }
  let seen ←
    if s.program.startsChecks s.self call (state {}) then
      let probes := s.program.probes.toArray.map (observeWithin s.program.patience)
      pure (← Async.concurrentlyAll probes).toList
    else pure []
  let (reply, checked) ← s.metrics.modifyGet fun m =>
    let (r, h) := (s.program.answering s.self seen).call call (state m)
    ((r, h.pool.log), h.metrics)
  s.logger.write (checked ++ reply.entries)
  match reply.outcome with
  | .answered x => return x
  | _ => return noResponse

instance : Std.Http.Server.Handler Shared where
  ResponseBody := Std.Http.Body.Full
  onRequest s q := do
    let x ← s.answer (requestOf q)
    send x

/-- What answers requests for metrics. -/
structure MetricsDesk where
  path : String
  metrics : IO.Ref Metrics

instance : Std.Http.Server.Handler MetricsDesk where
  ResponseBody := Std.Http.Body.Full
  onRequest d q := do
    let m ← d.metrics.get
    send (m.respond d.path (toString q.line.uri))

/-! ## From the start to the end -/

/-- The bounds of the HTTP server. Where there is none, a day stands for it. -/
def bounds (s : ServerSettings) : Std.Http.Config :=
  let millis (d : Option Duration) : Nat := (d.map (· / Duration.perMilli)).getD 86400000
  { serverName := none
    headerTimeout := .ofNat (millis s.headBound)
    keepAliveTimeout := ⟨.ofNat (millis (ServerSettings.bound? s.idleTimeout) + 1), by
      show (0 : Int) < ((_ + 1 : Nat) : Int)
      omega⟩ }

/-- Waits for a signal. -/
def awaitSignal : Async StopSignal := do
  let wait (signal : Signal) (name : StopSignal) : Async StopSignal := do
    let waiter ← Signal.Waiter.mk signal false
    let _ ← await (← waiter.wait)
    return name
  Async.race (wait .sigint .interrupt) (wait .sigterm .terminate)

/-- Ends the server in good order, or tells why that took too long. -/
def stop (server : Std.Http.Server) (settings : ServerSettings) : Async (Except RunError Unit) :=
  Async.race
    (do
      server.shutdownAndWait
      return .ok ())
    (do
      sleep (.ofNat (settings.shutdownTimeout / Duration.perMilli))
      return .error (.drain settings.shutdownTimeout))

/-- Answers until a signal comes, and then ends. -/
def run (s : Shared) : Async (Except RunError Unit) := do
  let settings := s.program.server.settings
  if let some place := s.program.metrics then
    let desk : MetricsDesk := ⟨place.path, s.metrics⟩
    let _ ← Std.Http.Server.serve (socketAddress place.address) desk
  let server ← Std.Http.Server.serve (socketAddress s.program.server.address) s (bounds settings)
  let signal ← awaitSignal
  s.logger.write [⟨.shutdownSignal signal.name, []⟩, ⟨.serverStopping settings.shutdownTimeout, []⟩]
  let ending ← stop server settings
  if ending.isOk then s.logger.write [⟨.serverStopped, []⟩]
  return ending

/-- Gives up. -/
def giveUp (chain : List String) : IO UInt32 := do
  IO.eprint (ErrorReport.ofChain chain)
  return 1

/-- Serves what a launch has brought up. -/
def serve (p : Program) (self : Identity) (logger : Logger) : IO UInt32 := do
  if p.server.isSecure then giveUp ["this build cannot serve TLS"]
  else
    match ← (run ⟨p, self, logger, ← IO.mkRef {}⟩).block with
    | .ok _ => return 0
    | .error e => giveUp e.chain

/-- Runs the program with its arguments, of which the first is the name of the configuration file. -/
def start (args : List String) : IO UInt32 := do
  let file := args.headD defaultConfigFile
  let files ← readFiles file
  let taken ← takenAddresses file ((files.lookup file).getD .missing)
  let surroundings : Surroundings :=
    { files := fun path => (files.lookup path).getD .missing
      refusal := fun e => if taken.contains e then some .addressInUse else none }
  let self : Identity := ⟨← Std.Async.System.getHostName, ← IO.monoNanosNow, ← calendarNow⟩
  let l := launch file surroundings self fun p => p.checker none false
  let filter := ((← IO.getEnv "VITAL_LOG").bind LogFilter.parse?).getD .standard
  let logger : Logger := ⟨l.style.getD .text, filter⟩
  logger.write l.entries
  match l.result with
  | .error e => giveUp e.chain
  | .ok p => serve p self logger

end HealthService.Main

/-- Runs the program. -/
def main (args : List String) : IO UInt32 := HealthService.Main.start args
