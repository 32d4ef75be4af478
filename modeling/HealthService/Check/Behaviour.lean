import HealthService.Check.Context
import HealthService.Check.Result

/-!
# Behaviours

What a checker does is a tree: at each node it does something, waits for something or comes to an
end, and the subtree that follows may depend on what it has seen. A checker sees nothing but the
clock and its context, and all it can do to others is to cancel that context.

`Behaviour.Next` relates a tree to those below its root. It is well-founded, so every run ends.
-/

namespace HealthService

/-- What a panic carries. -/
inductive Payload where
  | text (s : String)
  /-- Something that is no text. -/
  | other
  deriving DecidableEq, Repr

/-- A payload in words. -/
def Payload.message : Payload → String
  | .text s => s
  | .other => "non-string panic payload"

/-- What a checker sees when it looks around. -/
structure View where
  now : Time
  remaining : Option Duration
  error : Option ContextError
  deriving DecidableEq, Repr

/-- What a checker does. -/
inductive Behaviour where
  /-- Reports an outcome. -/
  | finish (outcome : CheckOutcome)
  /-- Panics. -/
  | panic (payload : Payload)
  /-- Does something that others can see. -/
  | act (what : String) (next : Behaviour)
  /-- Cancels its context. -/
  | cancel (next : Behaviour)
  /-- Looks around. -/
  | look (next : View → Behaviour)
  /-- Waits until a timer goes off, whatever happens to the context. -/
  | sleepUntil (deadline : Time) (next : Behaviour)
  /-- Waits for something that is due at some time, or never, or for the end of the context, whichever
  comes first. If both have come, `dueWins` decides. -/
  | race (due : Option Time) (dueWins : Bool) (onDue : Behaviour) (onEnd : ContextError → Behaviour)

namespace Behaviour

/-- A tree below the root of another one. -/
inductive Next : Behaviour → Behaviour → Prop where
  | act (what : String) (next : Behaviour) : Next next (.act what next)
  | cancel (next : Behaviour) : Next next (.cancel next)
  | look (next : View → Behaviour) (view : View) : Next (next view) (.look next)
  | sleepUntil (deadline : Time) (next : Behaviour) : Next next (.sleepUntil deadline next)
  | onDue (due : Option Time) (dueWins : Bool) (onDue : Behaviour)
      (onEnd : ContextError → Behaviour) : Next onDue (.race due dueWins onDue onEnd)
  | onEnd (due : Option Time) (dueWins : Bool) (onDue : Behaviour)
      (onEnd : ContextError → Behaviour) (error : ContextError) :
      Next (onEnd error) (.race due dueWins onDue onEnd)

theorem next_wellFounded : WellFounded Next := by
  refine ⟨fun b => ?_⟩
  induction b with
  | finish outcome => exact ⟨_, fun _ h => nomatch h⟩
  | panic payload => exact ⟨_, fun _ h => nomatch h⟩
  | act what next ih => exact ⟨_, fun _ h => by cases h; exact ih⟩
  | cancel next ih => exact ⟨_, fun _ h => by cases h; exact ih⟩
  | look next ih => exact ⟨_, fun _ h => by cases h; exact ih _⟩
  | sleepUntil deadline next ih => exact ⟨_, fun _ h => by cases h; exact ih⟩
  | race due dueWins onDue onEnd ihDue ihEnd =>
    refine ⟨_, fun _ h => ?_⟩
    cases h with
    | onDue => exact ihDue
    | onEnd => exact ihEnd _

/-- Waits for a while, whatever happens to the context. -/
def sleep (d : Duration) (next : Behaviour) : Behaviour :=
  .look fun v => .sleepUntil (v.now.sleepUntil d) next

/-- Waits for a while, or for the end of the context. The while is over when its timer goes off. -/
def sleepOrEnd (d : Duration) (timerWins : Bool) (next : Behaviour)
    (onEnd : ContextError → Behaviour) : Behaviour :=
  .look fun v => .race (some (v.now.sleepUntil d).goesOff) timerWins next onEnd

/-- Waits for something from outside that comes after a while, or for the end of the context. What comes
from outside comes at any time, not at ticks only. -/
def hearOrEnd (after : Duration) (heardWins : Bool) (next : Behaviour)
    (onEnd : ContextError → Behaviour) : Behaviour :=
  .look fun v => .race (some (v.now + after)) heardWins next onEnd

end Behaviour

/-- Something to check, by name. -/
structure Checker where
  name : String
  behaviour : Behaviour

end HealthService
