import HealthService.Check.Behaviour

/-!
# Checks under way

A `Task` is a checker at work: its context, when it started, and what is left of its behaviour, or
the result in which it ended. `Task.step?` makes it take its next step, if it does not have to wait.

The result is what the checker reported, except that nobody is in order whose context has ended by
the time of the report.
-/

namespace HealthService

/-- What becomes of a report, given whether the context has ended and how long the check took. -/
def CheckOutcome.judge (o : CheckOutcome) (name : String) (error : Option ContextError)
    (elapsed : Duration) : CheckResult × List Entry :=
  let message := o.message.filter (· ≠ "")
  let finished (s : Status) : Entry := ⟨.checkFinished name s elapsed, []⟩
  match o.status, error with
  | .ok, some e =>
    let message := match message with
      | some own => own ++ "; " ++ e.message
      | none => e.message
    (⟨name, .error, some message, elapsed.describe⟩,
      [⟨.lateOk name e, []⟩, finished .error])
  | s, _ => (⟨name, s, message, elapsed.describe⟩, [finished s])

/-- How far a check has come. -/
inductive Progress where
  | running (rest : Behaviour)
  | returned (result : CheckResult) (elapsed : Duration)
  | panicked (payload : Payload)

/-- A check under way. -/
structure Task where
  name : String
  context : Context
  started : Time
  progress : Progress

/-- Something that a checker did. -/
structure Act where
  time : Time
  checker : String
  what : String
  deriving DecidableEq, Repr

/-- What a step leaves behind. -/
structure Task.Step where
  contexts : Contexts
  progress : Progress
  acts : List Act := []
  entries : List Entry := []

namespace Task

/-- Whether a task has come to its end. -/
def hasEnded (t : Task) : Bool :=
  match t.progress with
  | .running _ => false
  | _ => true

/-- What the checker sees. -/
def view (t : Task) (cs : Contexts) (now : Time) : View :=
  ⟨now, t.context.remaining now, cs.error? t.context now⟩

/-- How a race stands: whether what is due has come, and why the context has ended. The subtree that
follows, if the race is over. -/
def raceEnd (come : Bool) (ended : Option ContextError) (dueWins : Bool) (onDue : Behaviour)
    (onEnd : ContextError → Behaviour) : Option Behaviour :=
  match come, ended with
  | true, some e => some (if dueWins then onDue else onEnd e)
  | true, none => some onDue
  | false, some e => some (onEnd e)
  | false, none => none

/-- The next step of a task, unless it has to wait or has ended. -/
def step? (t : Task) (cs : Contexts) (now : Time) : Option Step :=
  match t.progress with
  | .running (.finish outcome) =>
    let elapsed := now - t.started
    let (result, entries) := outcome.judge t.name (cs.error? t.context now) elapsed
    some { contexts := cs, progress := .returned result elapsed, entries := entries }
  | .running (.panic payload) => some { contexts := cs, progress := .panicked payload }
  | .running (.act what next) =>
    some { contexts := cs, progress := .running next, acts := [⟨now, t.name, what⟩] }
  | .running (.cancel next) =>
    some { contexts := cs.cancel t.context, progress := .running next }
  | .running (.look next) =>
    some { contexts := cs, progress := .running (next (t.view cs now)) }
  | .running (.sleepUntil deadline next) =>
    if now.hasFired deadline then some { contexts := cs, progress := .running next } else none
  | .running (.race due dueWins onDue onEnd) =>
    (raceEnd (due.any (· ≤ now)) (cs.awaited? t.context now) dueWins onDue onEnd).map
      fun next => { contexts := cs, progress := .running next }
  | .returned .. | .panicked _ => none

/-- When a waiting task goes on of itself. -/
def wakeUp? (t : Task) (now : Time) : Option Time :=
  match t.progress with
  | .running (.sleepUntil deadline _) => some (now.wakeUp deadline)
  | .running (.race due _ _ _) =>
    Contexts.earlier (due.map (max now)) (t.context.deadline.map now.wakeUp)
  | _ => none

/-- A task that is nearer to its end than another one. -/
inductive Nearer : Task → Task → Prop where
  | running {t u : Task} {b c : Behaviour} (ht : t.progress = .running b)
      (hu : u.progress = .running c) (h : Behaviour.Next b c) : Nearer t u
  | ended {t u : Task} {c : Behaviour} (ht : t.hasEnded = true)
      (hu : u.progress = .running c) : Nearer t u

theorem nearer_acc_of_hasEnded {t : Task} (h : t.hasEnded = true) : Acc Nearer t := by
  refine ⟨_, fun u hu => ?_⟩
  cases hu with
  | running _ ht _ => rw [hasEnded, ht] at h; cases h
  | ended _ ht => rw [hasEnded, ht] at h; cases h

theorem nearer_wellFounded : WellFounded Nearer := by
  have running : ∀ (b : Behaviour) (t : Task), t.progress = .running b → Acc Nearer t := by
    intro b
    induction b using Behaviour.next_wellFounded.induction with
    | _ b ih =>
      intro t ht
      refine ⟨_, fun u hu => ?_⟩
      cases hu with
      | running hu ht' h =>
        rw [ht] at ht'
        injection ht' with e
        exact ih _ (e ▸ h) u hu
      | ended hu _ => exact nearer_acc_of_hasEnded hu
  refine ⟨fun t => ?_⟩
  match ht : t.progress with
  | .running b => exact running b t ht
  | .returned result elapsed => exact nearer_acc_of_hasEnded (by rw [hasEnded, ht])
  | .panicked payload => exact nearer_acc_of_hasEnded (by rw [hasEnded, ht])

/-- Every step brings a task nearer to its end. -/
theorem nearer_of_step? {t : Task} {cs : Contexts} {now : Time} {s : Step}
    (h : t.step? cs now = some s) : Nearer { t with progress := s.progress } t := by
  unfold step? at h
  split at h
  · injection h with h; subst h; exact .ended rfl (by assumption)
  · injection h with h; subst h; exact .ended rfl (by assumption)
  · injection h with h; subst h; exact .running rfl (by assumption) (.act _ _)
  · injection h with h; subst h; exact .running rfl (by assumption) (.cancel _)
  · injection h with h; subst h; exact .running rfl (by assumption) (.look _ _)
  · split at h
    · injection h with h; subst h; exact .running rfl (by assumption) (.sleepUntil _ _)
    · cases h
  · rename_i due dueWins onDue onEnd heq
    obtain ⟨b, hb, h⟩ := Option.map_eq_some_iff.mp h
    subst h
    unfold raceEnd at hb
    split at hb
    · injection hb with hb
      split at hb
      · subst hb; exact .running rfl heq (.onDue ..)
      · subst hb; exact .running rfl heq (.onEnd ..)
    · injection hb with hb; subst hb; exact .running rfl heq (.onDue ..)
    · injection hb with hb; subst hb; exact .running rfl heq (.onEnd ..)
    · cases hb
  · cases h
  · cases h

end Task

end HealthService
