import HealthService.Log.Event
import HealthService.Time.Clock

/-!
# Contexts

A check gets a context that tells it when to give up: after a deadline, or when the context is
cancelled. Contexts are derived from each other; a derived one is never allowed more than the one it
comes from. `Contexts` is a forest of nodes, which a `Context` refers to: several contexts may share
a node and are cancelled together.

A node that is derived from a cancelled one is cancelled from the start, and cancelling a node
cancels all nodes below it and no others. Nodes outlive the contexts that refer to them.
-/

namespace HealthService

/-- A node of the forest. -/
structure Contexts.Node where
  /-- The node that it is derived from; an earlier one. -/
  parent : Option Nat
  canceled : Bool
  deriving DecidableEq, Repr

/-- The nodes of all contexts in the order of their making. -/
structure Contexts where
  nodes : List Contexts.Node := []
  deriving DecidableEq, Repr

/-- A place in the forest and the time until which there is something to do. -/
structure Context where
  node : Nat
  deadline : Option Time
  deriving DecidableEq, Repr

namespace Contexts

/-- Whether a node is cancelled. -/
def isCanceled (cs : Contexts) (node : Nat) : Bool :=
  match cs.nodes[node]? with
  | some n => n.canceled
  | none => false

/-- Whether a node that hangs on another one is cancelled from the start. -/
def inherits (nodes : List Node) (parent : Option Nat) : Bool :=
  match parent with
  | some p => isCanceled ⟨nodes⟩ p
  | none => false

/-! ## Deriving -/

/-- A new context without bounds. -/
def background (cs : Contexts) : Contexts × Context :=
  (⟨cs.nodes ++ [⟨none, false⟩]⟩, ⟨cs.nodes.length, none⟩)

/-- A context with the same deadline that can be cancelled on its own. -/
def child (cs : Contexts) (c : Context) : Contexts × Context :=
  (⟨cs.nodes ++ [⟨some c.node, cs.isCanceled c.node⟩]⟩, ⟨cs.nodes.length, c.deadline⟩)

/-- The earlier of two deadlines. -/
def earlier : Option Time → Option Time → Option Time
  | some a, some b => some (min a b)
  | some a, none => some a
  | none, b => b

/-- A context that ends after a budget, or earlier if the one that it is derived from does. A budget
that leads too far into the future is no bound. -/
def withTimeout (cs : Contexts) (c : Context) (now : Time) (budget : Duration) :
    Contexts × Context :=
  let (cs, derived) := cs.child c
  (cs, { derived with deadline := earlier c.deadline (now.after? budget) })

/-! ## Cancelling -/

/-- The nodes with one of them and all below it cancelled; `done` holds the nodes before the rest. -/
def mark (node : Nat) (done : List Node) : List Node → List Node
  | [] => done
  | n :: rest =>
    let hit := done.length = node || inherits done n.parent
    mark node (done ++ [{ n with canceled := n.canceled || hit }]) rest

/-- Cancels a node and all below it. -/
def cancelNode (cs : Contexts) (node : Nat) : Contexts := ⟨mark node [] cs.nodes⟩

/-- Cancels a context. -/
def cancel (cs : Contexts) (c : Context) : Contexts := cs.cancelNode c.node

/-! ## Looking -/

/-- Why a context has ended, if it has. That it is cancelled counts more than its deadline. -/
def error? (cs : Contexts) (c : Context) (now : Time) : Option ContextError :=
  if cs.isCanceled c.node then some .canceled
  else match c.deadline with
    | some d => if d ≤ now then some .deadlineExceeded else none
    | none => none

/-- Whether a context has ended. -/
def isDone (cs : Contexts) (c : Context) (now : Time) : Bool := (cs.error? c now).isSome

/-- What somebody who waits for the end of a context is told, once the wait is over. A deadline is
noticed when its timer goes off. -/
def awaited? (cs : Contexts) (c : Context) (now : Time) : Option ContextError :=
  if cs.isCanceled c.node then some .canceled
  else match c.deadline with
    | some d => if now.hasFired d then some .deadlineExceeded else none
    | none => none

/-- Waits for the end of a context, but no longer than some time: when the wait is over, and what it
brought. -/
def await (cs : Contexts) (c : Context) (now : Time) (patience : Duration) :
    Time × Option ContextError :=
  match cs.awaited? c now with
  | some e => (now, some e)
  | none =>
    let limit := now.wakeUp (now.sleepUntil patience)
    match c.deadline.map now.wakeUp with
    | some t => if t ≤ limit then (t, some .deadlineExceeded) else (limit, none)
    | none => (limit, none)

end Contexts

/-- How much time a context leaves. -/
def Context.remaining (c : Context) (now : Time) : Option Duration := c.deadline.map (· - now)

end HealthService
