import HealthService.Check.Task

/-!
# Pools of checks

A `Pool` holds checks that are under way at the same time, with the clock and the contexts that they
share. Nothing takes time by itself: as long as some check can take a step it does, and only when all
of them wait does the clock go on, straight to the next time at which something happens. Somebody
outside may have planned to cancel contexts at certain times.

`Pool.Moves` allows the checks to take their steps in any order; `Pool.run` always lets the first one
step that can.
-/

namespace HealthService

/-- A cancellation planned for some time. -/
structure Plan where
  time : Time
  node : Nat
  deriving DecidableEq, Repr

/-- Checks under way, and what they share. -/
structure Pool where
  now : Time := 0
  contexts : Contexts := {}
  /-- All tasks there ever were, in the order of their start. -/
  tasks : List Task := []
  plans : List Plan := []
  acts : List Act := []
  log : List Entry := []

namespace Pool

/-! ## Steps -/

/-- The pool after a step of a task, whose place is between others. -/
def withStep (p : Pool) (before : List Task) (t : Task) (after : List Task) (s : Task.Step) : Pool :=
  { p with
    contexts := s.contexts
    tasks := before ++ { t with progress := s.progress } :: after
    acts := p.acts ++ s.acts
    log := p.log ++ s.entries }

/-- The pool after a step of the first task that can take one; `before` holds those that cannot. -/
def stepFirst? (p : Pool) (before : List Task) : List Task → Option Pool
  | [] => none
  | t :: after =>
    match t.step? p.contexts p.now with
    | some s => some (p.withStep before t after s)
    | none => stepFirst? p (before ++ [t]) after

/-- The pool after the first planned cancellation that is due; `before` holds those that are not. -/
def cancelFirst? (p : Pool) (before : List Plan) : List Plan → Option Pool
  | [] => none
  | x :: after =>
    if p.now.hasFired x.time then
      some { p with contexts := p.contexts.cancelNode x.node, plans := before ++ after }
    else cancelFirst? p (before ++ [x]) after

/-- The pool after the next thing that happens at this instant. -/
def step? (p : Pool) : Option Pool :=
  match p.cancelFirst? [] p.plans with
  | some q => some q
  | none => p.stepFirst? [] p.tasks

/-- The next time at which something happens of itself. -/
def next? (p : Pool) : Option Time :=
  let times := p.tasks.map (·.wakeUp? p.now) ++ p.plans.map fun x => some (p.now.wakeUp x.time)
  times.foldl Contexts.earlier none

/-! ## Every run ends -/

/-- Tasks of which one has come nearer to its end. -/
inductive Nearer : List Task → List Task → Prop where
  | head {t u : Task} (h : Task.Nearer t u) (ts : List Task) : Nearer (t :: ts) (u :: ts)
  | tail (t : Task) {ts us : List Task} (h : Nearer ts us) : Nearer (t :: ts) (t :: us)

theorem nearer_wellFounded : WellFounded Nearer := by
  have cons : ∀ (t : Task) (ts : List Task), Acc Nearer ts → Acc Nearer (t :: ts) := by
    intro t
    induction t using Task.nearer_wellFounded.induction with
    | _ t iht =>
      intro ts hts
      induction hts with
      | intro ts h ihts =>
        refine ⟨_, fun us hu => ?_⟩
        cases hu with
        | head hu _ => exact iht _ hu ts ⟨_, h⟩
        | tail _ hu => exact ihts _ hu
  refine ⟨fun ts => ?_⟩
  induction ts with
  | nil => exact ⟨_, fun _ h => nomatch h⟩
  | cons t ts ih => exact cons t ts ih

theorem nearer_append (before : List Task) {ts us : List Task} (h : Nearer ts us) :
    Nearer (before ++ ts) (before ++ us) := by
  induction before with
  | nil => exact h
  | cons t before ih => exact .tail t ih

/-- Pools are measured by their plans and then by their tasks. -/
instance rank : WellFoundedRelation Pool :=
  invImage (fun p => (p.plans.length, p.tasks))
    (Prod.lex Nat.lt_wfRel ⟨Nearer, nearer_wellFounded⟩)

theorem stepFirst?_decreases {p q : Pool} {before ts : List Task}
    (h : p.stepFirst? before ts = some q) :
    q.plans = p.plans ∧ Nearer q.tasks (before ++ ts) := by
  induction ts generalizing before with
  | nil => cases h
  | cons t after ih =>
    unfold stepFirst? at h
    split at h
    · rename_i s hs
      injection h with h
      subst h
      exact ⟨rfl, nearer_append _ (.head (Task.nearer_of_step? hs) _)⟩
    · have := ih h
      rwa [List.append_assoc] at this

theorem cancelFirst?_decreases {p q : Pool} {before xs : List Plan}
    (h : p.cancelFirst? before xs = some q) :
    q.tasks = p.tasks ∧ q.plans.length < before.length + xs.length := by
  induction xs generalizing before with
  | nil => cases h
  | cons x after ih =>
    unfold cancelFirst? at h
    split at h
    · injection h with h
      subst h
      simp
    · have := ih h
      simp at this ⊢
      exact ⟨this.1, by omega⟩

theorem step?_decreases {p q : Pool} (h : p.step? = some q) : rank.rel q p := by
  unfold step? at h
  split at h
  · rename_i r hr
    injection h with h
    subst h
    have := (cancelFirst?_decreases hr).2
    simp at this
    exact Prod.Lex.left _ _ this
  · have := stepFirst?_decreases h
    show Prod.Lex _ _ (_, _) (_, _)
    rw [this.1]
    exact Prod.Lex.right _ this.2

/-! ## Runs -/

/-- The same pool at another time. -/
def atTime (p : Pool) (now : Time) : Pool := { p with now := now }

/-- Goes to the end of a wait, or stays if it has none. -/
def atLimit (p : Pool) (limit : Option Time) : Pool :=
  match limit with
  | some l => p.atTime (p.now.wakeUp l)
  | none => p

/-- Whether a time comes after the end of a wait. -/
def isBeyond (p : Pool) (limit : Option Time) (t : Time) : Bool :=
  limit.any fun l => p.now.wakeUp l < t

/-- Lets things happen until somebody has seen enough or will not wait any longer. -/
def run (enough : Pool → Bool) (limit : Option Time) (p : Pool) : Pool :=
  if enough p then p
  else
    match _h : p.step? with
    | some q => run enough limit q
    | none =>
      match p.next? with
      | none => p.atLimit limit
      | some t =>
        if p.isBeyond limit t then p.atLimit limit
        else
          match _later : (p.atTime t).step? with
          | some q => run enough limit q
          | none => p.atTime t
termination_by p
decreasing_by
  · exact step?_decreases _h
  · have := step?_decreases _later
    exact this

/-- Everything that may happen next: a planned cancellation that is due, a step of any task that can
take one, or, when there is nothing of the kind, the passing of time. -/
inductive Moves : Pool → Pool → Prop where
  | plan {p : Pool} {before after : List Plan} {x : Plan} (h : p.plans = before ++ x :: after)
      (due : p.now.hasFired x.time = true) :
      Moves p { p with contexts := p.contexts.cancelNode x.node, plans := before ++ after }
  | task {p : Pool} {before after : List Task} {t : Task} {s : Task.Step}
      (h : p.tasks = before ++ t :: after) (hs : t.step? p.contexts p.now = some s) :
      Moves p (p.withStep before t after s)
  | time {p : Pool} {t : Time} (idle : p.step? = none) (h : p.next? = some t) :
      Moves p (p.atTime t)

/-! ## Starting checks -/

/-- Starts a check in a context, narrowed by a budget of its own if that is not zero. -/
def start (p : Pool) (ctx : Context) (budget : Option Duration) (c : Checker) : Pool :=
  let (contexts, own) := match budget with
    | some b => if b = 0 then (p.contexts, ctx) else p.contexts.withTimeout ctx p.now b
    | none => (p.contexts, ctx)
  let t : Task := ⟨c.name, own, p.now, .running c.behaviour⟩
  { p with contexts := contexts, tasks := p.tasks ++ [t] }

/-- Whether all tasks from the given place on have come to their end. -/
def hasEndedFrom (p : Pool) (first : Nat) : Bool := (p.tasks.drop first).all Task.hasEnded

/-- Runs one check and tells how it ended; the flag says whether it did. -/
def runCheck (p : Pool) (ctx : Context) (budget : Option Duration) (c : Checker) : Pool × Progress :=
  let first := p.tasks.length
  let p := (p.start ctx budget c).run (·.hasEndedFrom first) none
  (p, match p.tasks[first]? with
    | some t => t.progress
    | none => .running c.behaviour)

/-- Lets some time pass. -/
def wait (p : Pool) (d : Duration) : Pool :=
  p.run (fun _ => false) (some (p.now.sleepUntil d))

end Pool

end HealthService
