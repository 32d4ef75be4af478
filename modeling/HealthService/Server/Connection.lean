import HealthService.Log.Event
import HealthService.Net.Address
import HealthService.Net.Pipe
import HealthService.Time.Clock

/-!
# Connections

A connection is given up when for some time no byte has moved in either direction. The time is
counted from the connection's beginning, and again from every read or write that moved a byte. It is
looked at only when a read or write would have to wait; a timeout of zero is none. Flushing and the end of
writing are left to the stream below.
-/

namespace HealthService

/-- A connection with a bound on its silence. -/
structure Connection where
  remote : Endpoint
  idleTimeout : Duration
  /-- When the silence has lasted too long. -/
  deadline : Option Time
  deriving DecidableEq, Repr

namespace Connection

/-- A new connection. -/
def new (remote : Endpoint) (idleTimeout : Duration) (now : Time) : Connection where
  remote := remote
  idleTimeout := idleTimeout
  deadline := if idleTimeout = 0 then none else some (now.sleepUntil idleTimeout)

/-- A byte has moved. -/
def touch (c : Connection) (now : Time) : Connection :=
  match c.deadline, now.after? c.idleTimeout with
  | some _, some d => { c with deadline := some d }
  | _, _ => c

/-- Whether the silence has lasted too long. -/
def hasExpired (c : Connection) (now : Time) : Bool := c.deadline.any now.hasFired

/-- What becomes of an operation that would have to wait. -/
def orIdle {α : Type} (c : Connection) (now : Time) : Polled α × List Entry :=
  if c.hasExpired now then (.failed .timedOut 0, [⟨.idleClosed c.remote.print c.idleTimeout, []⟩])
  else (.pending, [])

/-- Reads, given what the stream below came to. -/
def read (c : Connection) (now : Time) (below : Polled Bytes) :
    Polled Bytes × Connection × List Entry :=
  match below with
  | .done b => (below, if b = [] then c else c.touch now, [])
  | .failed _ moved => (below, if moved = 0 then c else c.touch now, [])
  | .pending =>
    let (r, entries) := c.orIdle now
    (r, c, entries)

/-- Writes, given what the stream below came to. -/
def write (c : Connection) (now : Time) (below : Polled Nat) :
    Polled Nat × Connection × List Entry :=
  match below with
  | .done n => (below, if n = 0 then c else c.touch now, [])
  | .failed .. => (below, c, [])
  | .pending =>
    let (r, entries) := c.orIdle now
    (r, c, entries)

/-- Flushes or ends the writing, which is left to the stream below. -/
def pass (c : Connection) (below : Polled Unit) : Polled Unit × Connection × List Entry :=
  (below, c, [])

end Connection

/-! ## All operations as one -/

/-- An operation with its result, be it that of the stream below or that of the connection. -/
inductive Operation where
  | read (result : Polled Bytes)
  | write (result : Polled Nat)
  /-- A write of several pieces at once. -/
  | writeVectored (result : Polled Nat)
  | flush (result : Polled Unit)
  | shutdown (result : Polled Unit)
  deriving DecidableEq, Repr

/-- Performs an operation, given what the stream below came to. -/
def Connection.perform (c : Connection) (now : Time) :
    Operation → Operation × Connection × List Entry
  | .read below => (c.read now below).map .read id
  | .write below => (c.write now below).map .write id
  | .writeVectored below => (c.write now below).map .writeVectored id
  | .flush below => (c.pass below).map .flush id
  | .shutdown below => (c.pass below).map .shutdown id

end HealthService
