import HealthService.Text.Utf8

/-!
# Pipes

A pipe carries bytes one way and holds only so many at a time. Two of them make a duplex connection,
at each of whose ends somebody writes into the one and reads from the other.

Every operation is a single attempt: it is done, it fails, or it would have to wait. Moving no bytes
at all is always possible.
-/

namespace HealthService

/-- Why an operation on a connection failed. -/
inductive IoError where
  | timedOut
  | brokenPipe
  | other (kind message : String)
  deriving DecidableEq, Repr

namespace IoError

/-- The name of the kind of an error. -/
def kind : IoError → String
  | .timedOut => "TimedOut"
  | .brokenPipe => "BrokenPipe"
  | .other kind _ => kind

/-- An error in words. -/
def message : IoError → String
  | .timedOut => "connection idle timeout"
  | .brokenPipe => "broken pipe"
  | .other _ message => message

end IoError

/-- What an attempt came to. -/
inductive Polled (α : Type) where
  | done (a : α)
  /-- It failed, perhaps after some bytes had moved. -/
  | failed (error : IoError) (moved : Nat)
  | pending
  deriving DecidableEq, Repr

/-- Bytes on their way from a writer to a reader. -/
structure Pipe where
  capacity : Nat
  held : Bytes := []
  closed : Bool := false
  deriving DecidableEq, Repr

namespace Pipe

/-- Takes out at most so many bytes. A closed pipe is read to its end. -/
def read (p : Pipe) (max : Nat) : Polled Bytes × Pipe :=
  if max = 0 then (.done [], p)
  else if p.held ≠ [] then (.done (p.held.take max), { p with held := p.held.drop max })
  else if p.closed then (.done [], p)
  else (.pending, p)

/-- Puts in as many bytes as there is room for. -/
def write (p : Pipe) (b : Bytes) : Polled Nat × Pipe :=
  let room := p.capacity - p.held.length
  if p.closed then (.failed .brokenPipe 0, p)
  else if b = [] then (.done 0, p)
  else if room = 0 then (.pending, p)
  else (.done (min room b.length), { p with held := p.held ++ b.take room })

/-- Closes a pipe. What it holds can still be read. -/
def close (p : Pipe) : Pipe := { p with closed := true }

end Pipe

end HealthService
