import HealthService.Check.Context

/-!
# Handles on contexts

Code that works with contexts has them in hand: it derives others from them, copies them, cancels
them, and at some time lets them go. `Handles` is the state of such code together with the forest
behind it, and `Handles.step?` does one `ContextOp`. Handles and guards are known by numbers in the
order of their making.

Nothing can be done with a handle that has been let go. A guard lives on its own: it still cancels
its context when the handle from which it was taken is long gone.
-/

namespace HealthService

/-- What can be done with contexts. -/
inductive ContextOp where
  /-- Makes a context without bounds. -/
  | background
  | child (handle : Nat)
  | clone (handle : Nat)
  | withTimeout (handle : Nat) (budget : Duration)
  | cancel (handle : Nat)
  /-- Takes a guard that cancels the context when it is let go. -/
  | cancelOnDrop (handle : Nat)
  | dropGuard (guard : Nat)
  | drop (handle : Nat)
  /-- Lets time pass. -/
  | wait (time : Duration)
  deriving DecidableEq, Repr

/-- A context in hand. -/
structure Handle where
  context : Context
  /-- Whether it has not been let go. -/
  live : Bool := true
  deriving DecidableEq, Repr

/-- What cancels a context when it is let go. -/
structure Guard where
  node : Nat
  /-- Whether it has not been let go. -/
  live : Bool := true
  deriving DecidableEq, Repr

/-- All contexts with the handles and guards on them. -/
structure Handles where
  contexts : Contexts := {}
  handles : List Handle := []
  guards : List Guard := []
  now : Time := 0
  deriving DecidableEq, Repr

namespace Handles

/-- The context of a handle that has not been let go. -/
def context? (s : Handles) (handle : Nat) : Option Context :=
  (s.handles[handle]?).bind fun h => if h.live then some h.context else none

/-- The node of a guard that has not been let go. -/
def guarded? (s : Handles) (guard : Nat) : Option Nat :=
  (s.guards[guard]?).bind fun g => if g.live then some g.node else none

/-- Takes a context in hand. -/
def hold (s : Handles) (made : Contexts × Context) : Handles :=
  { s with contexts := made.1, handles := s.handles ++ [{ context := made.2 }] }

/-- Does something with contexts, unless it takes a handle or a guard that is not there. -/
def step? (s : Handles) : ContextOp → Option Handles
  | .background => some (s.hold s.contexts.background)
  | .child i => (s.context? i).map fun c => s.hold (s.contexts.child c)
  | .clone i => (s.context? i).map fun c => s.hold (s.contexts, c)
  | .withTimeout i budget =>
    (s.context? i).map fun c => s.hold (s.contexts.withTimeout c s.now budget)
  | .cancel i => (s.context? i).map fun c => { s with contexts := s.contexts.cancel c }
  | .cancelOnDrop i =>
    (s.context? i).map fun c => { s with guards := s.guards ++ [{ node := c.node }] }
  | .dropGuard g =>
    (s.guarded? g).map fun n =>
      { s with
        contexts := s.contexts.cancelNode n
        guards := s.guards.modify g fun x => { x with live := false } }
  | .drop i =>
    (s.context? i).map fun _ =>
      { s with handles := s.handles.modify i fun h => { h with live := false } }
  | .wait time => some { s with now := s.now + time }

/-- Does several things one after another. -/
def run? (s : Handles) (ops : List ContextOp) : Option Handles := ops.foldlM step? s

end Handles

end HealthService
