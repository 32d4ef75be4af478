import HealthService.Server.Connection

/-!
# Connections over pipes

A connection whose peer is reached through two pipes, one in each direction, with the clock that both ends
share.
-/

namespace HealthService

/-- A connection and the pipes that it is made of. -/
structure PipedConnection where
  connection : Connection
  now : Time := 0
  incoming : Pipe
  outgoing : Pipe
  deriving DecidableEq, Repr

namespace PipedConnection

/-- Tries to read at most so many bytes. -/
def read (p : PipedConnection) (max : Nat) : Polled Bytes × PipedConnection × List Entry :=
  let (below, incoming) := p.incoming.read max
  let (r, c, entries) := p.connection.read p.now below
  (r, { p with connection := c, incoming := incoming }, entries)

/-- Tries to write. -/
def write (p : PipedConnection) (b : Bytes) : Polled Nat × PipedConnection × List Entry :=
  let (below, outgoing) := p.outgoing.write b
  let (r, c, entries) := p.connection.write p.now below
  (r, { p with connection := c, outgoing := outgoing }, entries)

/-- Stops writing. -/
def shutdown (p : PipedConnection) : PipedConnection :=
  let (_, c, _) := p.connection.pass (.done ())
  { p with connection := c, outgoing := p.outgoing.close }

/-- The peer writes. -/
def peerWrite (p : PipedConnection) (b : Bytes) : Polled Nat × PipedConnection :=
  let (r, incoming) := p.incoming.write b
  (r, { p with incoming := incoming })

/-- The peer reads. -/
def peerRead (p : PipedConnection) (max : Nat) : Polled Bytes × PipedConnection :=
  let (r, outgoing) := p.outgoing.read max
  (r, { p with outgoing := outgoing })

/-- The peer goes away. -/
def peerClose (p : PipedConnection) : PipedConnection :=
  { p with incoming := p.incoming.close, outgoing := p.outgoing.close }

/-- Waits for a read, but no longer than a limit. Nothing comes from the peer meanwhile, so the wait ends
when the connection has been silent for too long, or at the limit. -/
def awaitRead (p : PipedConnection) (max : Nat) (limit : Duration) :
    Polled Bytes × PipedConnection × List Entry :=
  match p.read max with
  | (.pending, _, _) =>
    let last := p.now.wakeUp (p.now + limit)
    match p.connection.deadline.map p.now.wakeUp with
    | some t =>
      if t ≤ last then { p with now := t }.read max else (.pending, { p with now := last }, [])
    | none => (.pending, { p with now := last }, [])
  | r => r

end PipedConnection

end HealthService
