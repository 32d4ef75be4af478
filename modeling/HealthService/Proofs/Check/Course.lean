import HealthService.Proofs.Check.Steps
import HealthService.Proofs.Contexts.Forest

/-!
# The course of a single check

All that a check gets from its surroundings is the time and whether its context has been cancelled.
`Course` follows a check on these terms: it takes its steps, its context may be cancelled at a
planned time, and when it waits the clock goes on to where something happens to it.  Nothing else of
a pool appears.  `Task.solo` is a task in a forest that holds nothing but its context.

A course is `free` if what happens at one instant may come in any order; otherwise a planned
cancellation comes first.

* `Task.step?_solo` — a task takes the same steps by itself as among others.
* `Course.unique` — **a course that is not free has one end**.
* `Course.of_stop` — **a stop of the clock during a wait makes no difference**.
* `Course.orderly` — a free course is as good as one that is not, if the check does nothing at the
  instant of the cancellation that depends on it (`Undisturbed`).
* `Course.returns` — **a check that does not panic and does not wait without end has a result**.
-/

namespace HealthService

/-! ## A task by itself -/

/-- A forest of a single context. -/
def Contexts.lone (canceled : Bool) : Contexts := ⟨[⟨none, canceled⟩]⟩

namespace Contexts

theorem isCanceled_lone (b : Bool) : (lone b).isCanceled 0 = b := rfl

theorem cancelNode_lone (b : Bool) : (lone b).cancelNode 0 = lone true := by
  cases b <;> rfl

/-- A node that is cancelled is cancelled. -/
theorem isCanceled_cancelNode_self {cs : Contexts} (h : cs.WellFormed) {n : Nat}
    (hn : n < cs.nodes.length) : (cs.cancelNode n).isCanceled n = true :=
  (isCanceled_cancelNode h n n).2 (Or.inr ⟨hn, self_mem_lineage cs n⟩)

end Contexts

open Contexts

namespace Task

/-- The task on the only context of a forest. -/
def solo (t : Task) : Task := { t with context := { t.context with node := 0 } }

variable {t : Task} {cs : Contexts} {now : Time}

theorem error?_solo : (lone (cs.isCanceled t.context.node)).error? t.solo.context now =
    cs.error? t.context now := by
  unfold error?
  rw [show t.solo.context.node = 0 from rfl, isCanceled_lone]
  rfl

theorem awaited?_solo : (lone (cs.isCanceled t.context.node)).awaited? t.solo.context now =
    cs.awaited? t.context now := by
  unfold awaited?
  rw [show t.solo.context.node = 0 from rfl, isCanceled_lone]
  rfl

/-- **A task takes the same steps by itself as among others.** -/
theorem step?_solo (hcs : cs.WellFormed) (hn : t.context.node < cs.nodes.length) :
    t.solo.step? (lone (cs.isCanceled t.context.node)) now = (t.step? cs now).map fun s =>
      { s with contexts := lone (s.contexts.isCanceled t.context.node) } := by
  cases hp : t.progress with
  | returned r e => rw [step?_of_hasEnded, step?_of_hasEnded] <;> simp [hasEnded, solo, hp]
  | panicked payload => rw [step?_of_hasEnded, step?_of_hasEnded] <;> simp [hasEnded, solo, hp]
  | running b =>
    have hsolo : t.solo.progress = .running b := hp
    unfold step?
    rw [hp, hsolo]
    cases b with
    | finish o =>
      dsimp only
      rw [error?_solo]
      rfl
    | look next =>
      have hview : t.solo.view (lone (cs.isCanceled t.context.node)) now = t.view cs now := by
        unfold view
        rw [error?_solo]
        rfl
      dsimp only
      rw [hview]
      rfl
    | cancel next =>
      simp only [Option.map_some, cancel]
      rw [isCanceled_cancelNode_self hcs hn]
      exact congrArg some (by rw [show t.solo.context.node = 0 from rfl, cancelNode_lone])
    | sleepUntil d next =>
      dsimp only
      split <;> rfl
    | race d w onDue onEnd =>
      dsimp only
      rw [awaited?_solo, Option.map_map]
      rfl
    | _ => rfl

end Task
/-! ## Courses -/

/-- The cancellation that a context has still before it. -/
def ahead (planned : Option Time) (canceled : Bool) : Option Time :=
  if canceled then none else planned

/-- A cancellation that a context has still before it is due. -/
def Due (planned : Option Time) (now : Time) (canceled : Bool) : Prop :=
  ∃ x ∈ ahead planned canceled, now.hasFired x = true

theorem not_due_of_canceled {planned : Option Time} {now : Time} : ¬ Due planned now true := by
  rintro ⟨x, hx, -⟩
  cases hx

theorem Due.canceled_eq {planned : Option Time} {now : Time} {canceled : Bool}
    (h : Due planned now canceled) : canceled = false := by
  cases canceled with
  | false => rfl
  | true => exact absurd h not_due_of_canceled

/-- When something happens to a task that waits. -/
def Task.until? (t : Task) (planned : Option Time) (now : Time) (canceled : Bool) : Option Time :=
  earlier (t.wakeUp? now) ((ahead planned canceled).map now.wakeUp)

theorem ahead_ahead (planned : Option Time) (canceled : Bool) :
    ahead (ahead planned canceled) canceled = ahead planned canceled := by
  cases canceled <;> rfl

theorem due_ahead {planned : Option Time} {now : Time} {canceled : Bool} :
    Due (ahead planned canceled) now canceled ↔ Due planned now canceled := by
  rw [Due, Due, ahead_ahead]

theorem until?_ahead {t : Task} {planned : Option Time} {now : Time} {canceled : Bool} :
    t.until? (ahead planned canceled) now canceled = t.until? planned now canceled := by
  rw [Task.until?, Task.until?, ahead_ahead]

/-- `Course free planned now canceled t g`: a task that is by itself at some time, in a context that
is cancelled or has a cancellation planned, comes to `g`. -/
inductive Course (free : Bool) (planned : Option Time) : Time → Bool → Task → Progress → Prop where
  | ended {now : Time} {canceled : Bool} {t : Task} (hend : t.hasEnded = true) :
      Course free planned now canceled t t.progress
  | own {now : Time} {canceled : Bool} {t : Task} {s : Task.Step} {g : Progress}
      (hs : t.step? (lone canceled) now = some s) (hturn : free = true ∨ ¬ Due planned now canceled)
      (rest : Course free planned now (s.contexts.isCanceled 0) { t with progress := s.progress } g) :
      Course free planned now canceled t g
  | plan {now : Time} {t : Task} {g : Progress} (hdue : Due planned now false)
      (rest : Course free planned now true t g) : Course free planned now false t g
  | wait {now u : Time} {canceled : Bool} {t : Task} {g : Progress}
      (hblocked : t.step? (lone canceled) now = none) (hlive : t.hasEnded = false)
      (hdue : ¬ Due planned now canceled) (hu : t.until? planned now canceled = some u)
      (rest : Course free planned u canceled t g) : Course free planned now canceled t g
  | forever {now : Time} {canceled : Bool} {t : Task}
      (hblocked : t.step? (lone canceled) now = none) (hlive : t.hasEnded = false)
      (hdue : ¬ Due planned now canceled) (hu : t.until? planned now canceled = none) :
      Course free planned now canceled t t.progress

namespace Course

variable {free : Bool} {planned : Option Time} {now u : Time} {canceled : Bool} {t : Task}
  {g g' : Progress}

theorem eq_of_hasEnded (h : Course free planned now canceled t g) (hend : t.hasEnded = true) :
    g = t.progress := by
  induction h with
  | ended => rfl
  | own hs =>
    rw [Task.step?_of_hasEnded hend] at hs
    cases hs
  | plan _ _ ih => exact ih hend
  | wait _ hlive => exact absurd (hend.symm.trans hlive) (by simp)
  | forever => rfl

/-- **A course that is not free has one end.** -/
theorem unique (h : Course false planned now canceled t g)
    (h' : Course false planned now canceled t g') : g = g' := by
  induction h generalizing g' with
  | ended hend => exact (h'.eq_of_hasEnded hend).symm
  | own hs hturn _ ih =>
    have hdue := hturn.resolve_left (by simp)
    cases h' with
    | ended hend => exact absurd (hs.symm.trans (Task.step?_of_hasEnded hend)) (by simp)
    | own hs' _ rest' =>
      obtain rfl := Option.some.inj (hs.symm.trans hs')
      exact ih rest'
    | plan hdue' => exact absurd hdue' hdue
    | wait hblocked => exact absurd (hs.symm.trans hblocked) (by simp)
    | forever hblocked => exact absurd (hs.symm.trans hblocked) (by simp)
  | plan hdue rest ih =>
    cases h' with
    | ended hend => exact rest.eq_of_hasEnded hend
    | own _ hturn' => exact absurd hdue (hturn'.resolve_left (by simp))
    | plan _ rest' => exact ih rest'
    | wait _ _ hdue' => exact absurd hdue hdue'
    | forever _ _ hdue' => exact absurd hdue hdue'
  | wait hblocked hlive hdue hu _ ih =>
    cases h' with
    | ended hend => exact absurd (hend.symm.trans hlive) (by simp)
    | own hs' => exact absurd (hs'.symm.trans hblocked) (by simp)
    | plan hdue' => exact absurd hdue' hdue
    | wait _ _ _ hu' rest' =>
      obtain rfl := Option.some.inj (hu.symm.trans hu')
      exact ih rest'
    | forever _ _ _ hu' => exact absurd (hu.symm.trans hu') (by simp)
  | forever hblocked hlive hdue hu =>
    cases h' with
    | ended => rfl
    | own hs' => exact absurd (hs'.symm.trans hblocked) (by simp)
    | plan hdue' => exact absurd hdue' hdue
    | wait _ _ _ hu' => exact absurd (hu'.symm.trans hu) (by simp)
    | forever => rfl

/-- A cancelled context stays cancelled whatever its task does. -/
theorem isCanceled_of_step? {s : Task.Step} (hs : t.step? (lone true) now = some s)
    (hn : t.context.node = 0) : s.contexts.isCanceled 0 = true := by
  rcases Task.step?_contexts hs with hc | ⟨hc, -⟩
  · rw [hc, isCanceled_lone]
  · rw [hc, hn, cancelNode_lone, isCanceled_lone]

/-- What is planned for a context that has been cancelled makes no difference. -/
theorem of_canceled {planned' : Option Time} (hn : t.context.node = 0)
    (h : Course free planned now true t g) : Course free planned' now true t g := by
  generalize hb : true = b at h
  induction h with
  | ended hend => exact .ended hend
  | own hs _ _ ih =>
    subst hb
    have hstay := isCanceled_of_step? hs hn
    exact .own hs (Or.inr not_due_of_canceled) (ih hn hstay.symm)
  | plan => cases hb
  | wait hblocked hlive _ hu _ ih =>
    subst hb
    exact .wait hblocked hlive not_due_of_canceled hu (ih hn rfl)
  | forever hblocked hlive _ hu =>
    subst hb
    exact .forever hblocked hlive not_due_of_canceled hu

/-! ## Stops of the clock -/

/-- What a task is waiting for does not come before its time. -/
theorem stays (hblocked : t.step? (lone canceled) now = none) (hl : now ≤ u)
    (hu : ∀ x ∈ t.until? planned now canceled, u < x) :
    t.step? (lone canceled) u = none ∧ ¬ Due planned u canceled ∧
      t.until? planned u canceled = t.until? planned now canceled := by
  have hboth : (∀ x ∈ t.wakeUp? now, u < x) ∧
      ∀ x ∈ (ahead planned canceled).map now.wakeUp, u < x := by
    cases he : t.until? planned now canceled with
    | none =>
      obtain ⟨hw, hp⟩ := earlier_eq_none he
      rw [hw, hp]
      simp
    | some y =>
      obtain ⟨-, hw, hp⟩ := earlier_eq_some he
      have hy : u < y := hu y he
      exact ⟨fun x hx => hy.trans_le (hw x hx), fun x hx => hy.trans_le (hp x hx)⟩
  obtain ⟨hstep, hwake⟩ := Task.stays_blocked hblocked hl hboth.1
  obtain ⟨hnot, hplan⟩ := Task.timer_of_later hl hboth.2
  refine ⟨hstep, ?_, ?_⟩
  · rintro ⟨x, hx, hfired⟩
    rw [hnot x hx] at hfired
    cases hfired
  · rw [Task.until?, Task.until?, hwake, hplan]

/-- **A stop of the clock during a wait makes no difference.** -/
theorem of_stop (hblocked : t.step? (lone canceled) now = none)
    (hdue : ¬ Due planned now canceled) (hl : now ≤ u)
    (hu : ∀ x ∈ t.until? planned now canceled, u ≤ x) (h : Course free planned u canceled t g) :
    Course free planned now canceled t g := by
  cases hlive : t.hasEnded with
  | true =>
    rw [h.eq_of_hasEnded hlive]
    exact .ended hlive
  | false =>
    by_cases hstop : t.until? planned now canceled = some u
    · exact .wait hblocked hlive hdue hstop h
    · have hlt : ∀ x ∈ t.until? planned now canceled, u < x := fun x hx =>
        lt_of_le_of_ne (hu x hx) (by rintro rfl; exact hstop hx)
      obtain ⟨hblocked', hdue', hsame⟩ := stays hblocked hl hlt
      cases h with
      | ended hend => exact absurd (hend.symm.trans hlive) (by simp)
      | own hs => exact absurd (hs.symm.trans hblocked') (by simp)
      | plan hdue'' => exact absurd hdue'' hdue'
      | wait _ _ _ hu' rest => exact .wait hblocked hlive hdue (hsame ▸ hu') rest
      | forever _ _ _ hu' => exact .forever hblocked hlive hdue (hsame ▸ hu')

/-! ## The instant of a cancellation -/

/-- The points that a task comes to by itself as long as its context is not cancelled. -/
inductive Before (planned : Option Time) (now : Time) (t : Task) : Time → Task → Prop where
  | start : Before planned now t now t
  | own {u : Time} {t' : Task} {s : Task.Step} (hs : t'.step? (lone false) u = some s)
      (h : Before planned now t u t') : Before planned now t u { t' with progress := s.progress }
  | wait {u v : Time} {t' : Task} (hblocked : t'.step? (lone false) u = none)
      (hv : t'.until? planned u false = some v) (h : Before planned now t u t') :
      Before planned now t v t'

/-- At the instant of the cancellation the task takes no step that it would not take as well, and
with the same outcome, in a context that has been cancelled. -/
def Undisturbed (planned : Option Time) (now : Time) (t : Task) : Prop :=
  ∀ u t' s, Before planned now t u t' → Due planned u false → t'.step? (lone false) u = some s →
    ∃ s', t'.step? (lone true) u = some s' ∧ s'.progress = s.progress

theorem Before.trans {t' t'' : Task} {v : Time} (h : Before planned now t u t')
    (h' : Before planned u t' v t'') : Before planned now t v t'' := by
  induction h' with
  | start => exact h
  | own hs _ ih => exact .own hs ih
  | wait hblocked hv _ ih => exact .wait hblocked hv ih

theorem Undisturbed.later {t' : Task} (hclear : Undisturbed planned now t)
    (h : Before planned now t u t') : Undisturbed planned u t' :=
  fun v t'' s hv => hclear v t'' s (h.trans hv)

/-- From the instant of a cancellation on it does not matter whether the task has taken a step
before it. -/
theorem own_of_plan {s s' : Task.Step} (hdue : Due planned now false) (hn : t.context.node = 0)
    (hs' : t.step? (lone true) now = some s') (hsame : s'.progress = s.progress)
    (h : Course false planned now (s.contexts.isCanceled 0) { t with progress := s.progress } g) :
    Course false planned now false t g := by
  refine .plan hdue (.own hs' (Or.inr not_due_of_canceled) ?_)
  rw [isCanceled_of_step? hs' hn, hsame]
  cases hb : s.contexts.isCanceled 0 with
  | true => rwa [hb] at h
  | false =>
    rw [hb] at h
    cases h with
    | ended hend => exact .ended hend
    | own _ hturn => exact absurd hdue (hturn.resolve_left (by simp))
    | plan _ rest => exact rest
    | wait _ _ hdue' => exact absurd hdue hdue'
    | forever _ _ hdue' => exact absurd hdue hdue'

/-- **Whoever is undisturbed comes to the same end in any order.** -/
theorem orderly (hn : t.context.node = 0)
    (hclear : canceled = false → Undisturbed planned now t)
    (h : Course free planned now canceled t g) : Course false planned now canceled t g := by
  induction h with
  | ended hend => exact .ended hend
  | @own now canceled t s g hs hturn _ ih =>
    have hrest : Course false planned now (s.contexts.isCanceled 0)
        { t with progress := s.progress } g := by
      refine ih hn fun hb => ?_
      cases hc : canceled with
      | true =>
        rw [hc] at hs
        rw [isCanceled_of_step? hs hn] at hb
        cases hb
      | false =>
        rw [hc] at hs
        exact (hclear hc).later (.own hs .start)
    by_cases hdue : Due planned now canceled
    · obtain rfl := hdue.canceled_eq
      obtain ⟨s', hs', hsame⟩ := hclear rfl now t s .start hdue hs
      exact own_of_plan hdue hn hs' hsame hrest
    · exact .own hs (Or.inr hdue) hrest
  | plan hdue _ ih => exact .plan hdue (ih hn fun hb => by cases hb)
  | wait hblocked hlive hdue hu _ ih =>
    refine .wait hblocked hlive hdue hu (ih hn fun hb => ?_)
    subst hb
    exact (hclear rfl).later (.wait hblocked hu .start)
  | forever hblocked hlive hdue hu => exact .forever hblocked hlive hdue hu

end Course

/-! ## Checks that have a result -/

namespace Behaviour

/-- A node that does not panic. -/
def KeepsCalm (b : Behaviour) : Prop := ∀ payload, b ≠ .panic payload

/-- A node that does not wait without end in a context with some deadline: a wait without a timer
needs the deadline. -/
def WaitsFor (deadline : Option Time) (b : Behaviour) : Prop :=
  ∀ w onDue onEnd, b = .race none w onDue onEnd → deadline ≠ none

theorem Always.root {P : Behaviour → Prop} {b : Behaviour} (h : b.Always P) : P b := by
  cases h with
  | intro root _ => exact root

end Behaviour

namespace Task

variable {t : Task} {cs : Contexts} {now : Time}

theorem wakeUp?_of_waits (hblocked : t.step? cs now = none) (hlive : t.hasEnded = false)
    (hwaits : t.Always (Behaviour.WaitsFor t.context.deadline)) : t.wakeUp? now ≠ none := by
  intro hnone
  rcases blocked_cases hblocked with hend | ⟨d, next, hp⟩ | ⟨d, w, a, b, hp⟩
  · exact absurd (hend.symm.trans hlive) (by simp)
  · rw [wakeUp?, hp] at hnone
    cases hnone
  · rw [wakeUp?, hp] at hnone
    obtain ⟨hd, hdeadline⟩ := earlier_eq_none hnone
    obtain rfl := Option.map_eq_none_iff.1 hd
    exact (hwaits _ hp).root w a b rfl (Option.map_eq_none_iff.1 hdeadline)

theorem step?_panicked {s : Step} {payload : Payload} (hs : t.step? cs now = some s)
    (hp : s.progress = .panicked payload) : t.progress = .running (.panic payload) := by
  unfold step? at hs
  split at hs
  case h_2 q hq =>
    cases hs
    rw [hq, Progress.panicked.inj hp]
  case h_6 =>
    split at hs
    · cases hs
      cases hp
    · cases hs
  case h_7 =>
    obtain ⟨_, -, rfl⟩ := Option.map_eq_some_iff.1 hs
    cases hp
  all_goals cases hs <;> cases hp

end Task

/-- **A check that does not panic and does not wait without end has a result.** -/
theorem Course.returns {free : Bool} {planned : Option Time} {now : Time} {canceled : Bool}
    {t : Task} {g : Progress} (h : Course free planned now canceled t g)
    (hcalm : t.Always Behaviour.KeepsCalm)
    (hwaits : t.Always (Behaviour.WaitsFor t.context.deadline))
    (hstart : ∀ payload, t.progress ≠ .panicked payload) :
    ∃ result elapsed, g = .returned result elapsed := by
  induction h with
  | @ended now canceled t hend =>
    cases hp : t.progress with
    | running b => simp [Task.hasEnded, hp] at hend
    | returned result elapsed => exact ⟨result, elapsed, rfl⟩
    | panicked payload => exact absurd hp (hstart payload)
  | own hs _ _ ih =>
    refine ih (Task.always_step hcalm hs) (Task.always_step hwaits hs) fun payload hp => ?_
    exact (hcalm _ (Task.step?_panicked hs hp)).root payload rfl
  | plan _ _ ih => exact ih hcalm hwaits hstart
  | wait _ _ _ _ _ ih => exact ih hcalm hwaits hstart
  | forever hblocked hlive _ hu =>
    exact absurd (earlier_eq_none hu).1 (Task.wakeUp?_of_waits hblocked hlive hwaits)

end HealthService
