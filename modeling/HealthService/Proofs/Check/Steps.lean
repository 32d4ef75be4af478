import HealthService.Check.Task
import Mathlib.Tactic

/-!
# Steps and waits

A task waits for a tick of the clock, for something that comes at a time of its own, or for the end of its
context, which it notices at a tick.  The clock of a pool may stop in between because of others.

* `Task.step?_of_wakeUp?` — **a wait ends at the time that the task has named for it**.
* `Task.stays_blocked` — **and not before**: at a stop in between the task still waits, and still
  for the same time.
* `Task.step?_reports` — a step is a report, which is judged, or it logs nothing and brings no result.
* `Task.step?_contexts` — a step does nothing to the contexts but to cancel the task's own one.
* `Task.always_step` — what holds of all nodes of a behaviour (`Behaviour.Always`) holds of all that
  is left of it after a step.
-/

namespace HealthService

/-! ## Timers -/

namespace Time

/-- A timer has not gone off as long as somebody waits for it. -/
theorem hasFired_eq_false_of_lt {now t deadline : Time} (h : now ≤ t) (hlt : t < now.wakeUp deadline) :
    t.hasFired deadline = false := by
  rw [Bool.eq_false_iff, Ne, hasFired_iff, not_le]
  exact (lt_max_iff.1 hlt).resolve_left h.not_gt

/-- Who begins to wait for a timer in between goes on at the same time. -/
theorem wakeUp_of_le {now t deadline : Time} (h : now ≤ t) (hle : t ≤ now.wakeUp deadline) :
    t.wakeUp deadline = now.wakeUp deadline :=
  le_antisymm (max_le hle (le_max_right _ _)) (max_le_max h le_rfl)

theorem goesOff_mono {d e : Time} (h : d ≤ e) : d.goesOff ≤ e.goesOff :=
  Nat.mul_le_mul_right _ (Nat.div_le_div_right (Nat.add_le_add_right h _))

theorem hasFired_of_le {now d e : Time} (h : d ≤ e) (he : now.hasFired e = true) :
    now.hasFired d = true :=
  hasFired_iff.2 ((goesOff_mono h).trans (hasFired_iff.1 he))

/-- A wait for a deadline that has not passed ends at its tick. -/
theorem wakeUp_of_deadline {now deadline : Time} (hle : now ≤ deadline) :
    now.wakeUp deadline = deadline.goesOff :=
  max_eq_right (hle.trans (le_goesOff deadline))

/-- Whole milliseconds are ticks. -/
theorem goesOff_of_whole {t : Nat} (h : t % Duration.perMilli = 0) : goesOff t = t := by
  simp only [goesOff, tick, Duration.perMilli] at h ⊢
  show (_ : Nat) = _
  omega

/-- Who begins to wait for a timer at a whole number of milliseconds goes on at one. -/
theorem whole_wakeUp {now : Time} (h : now % Duration.perMilli = 0) (deadline : Time) :
    now.wakeUp deadline % Duration.perMilli = 0 := by
  rcases max_choice now deadline.goesOff with hmax | hmax
  · rw [wakeUp, hmax, h]
  · rw [wakeUp, hmax, goesOff, Nat.mul_mod_left]

/-- **A sleep ends at the tick of its duration**: never before that has passed, and exactly then if all is a
whole number of milliseconds. -/
theorem wakeUp_sleepUntil {now : Time} {d : Duration} (h : now + d < horizon) :
    now + d ≤ now.wakeUp (now.sleepUntil d) ∧ (now % Duration.perMilli = 0 →
      d % Duration.perMilli = 0 → now.wakeUp (now.sleepUntil d) = now + d) := by
  have hsleep : now.sleepUntil d = now + d := by
    rw [sleepUntil, after?, if_pos h, Option.getD_some]
  rw [hsleep, wakeUp_of_deadline (Nat.le_add_right _ _)]
  refine ⟨le_goesOff _, fun hnow hd => goesOff_of_whole ?_⟩
  rw [Nat.add_mod, hnow, hd]
  rfl

end Time

/-! ## The earliest of several times -/

namespace Contexts

theorem earlier_eq_some {a b : Option Time} {t : Time} (h : earlier a b = some t) :
    (a = some t ∨ b = some t) ∧ (∀ x ∈ a, t ≤ x) ∧ ∀ x ∈ b, t ≤ x := by
  cases a with
  | none => exact ⟨Or.inr h, by simp, fun x hx => (Option.some.inj (h.symm.trans hx)).le⟩
  | some a =>
    cases b with
    | none => exact ⟨Or.inl h, fun x hx => (Option.some.inj (h.symm.trans hx)).le, by simp⟩
    | some b =>
      obtain rfl : min a b = t := Option.some.inj h
      refine ⟨?_, ?_, ?_⟩
      · rcases min_choice a b with hm | hm <;> simp [hm]
      · rintro x ⟨⟩
        exact min_le_left a b
      · rintro x ⟨⟩
        exact min_le_right a b

theorem earlier_eq_none {a b : Option Time} (h : earlier a b = none) : a = none ∧ b = none := by
  cases a <;> cases b <;> simp_all [earlier]

/-- The earlier of two times is no later than either of them. -/
theorem exists_earlier_le {a b : Option Time} {x : Time} (h : x ∈ a ∨ x ∈ b) :
    ∃ y ∈ earlier a b, y ≤ x := by
  cases he : earlier a b with
  | none =>
    obtain ⟨rfl, rfl⟩ := earlier_eq_none he
    exact h.elim nofun nofun
  | some y =>
    obtain ⟨-, ha, hb⟩ := earlier_eq_some he
    exact ⟨y, rfl, h.elim (ha x) (hb x)⟩

theorem foldl_earlier_eq_some {l : List (Option Time)} {a : Option Time} {t : Time}
    (h : l.foldl earlier a = some t) :
    (a = some t ∨ some t ∈ l) ∧ (∀ x ∈ a, t ≤ x) ∧ ∀ x : Time, some x ∈ l → t ≤ x := by
  induction l generalizing a with
  | nil => exact ⟨Or.inl h, fun x hx => (Option.some.inj (h.symm.trans hx)).le, by simp⟩
  | cons b l ih =>
    obtain ⟨hmem, hacc, hrest⟩ := ih h
    have hboth : ∀ x, a = some x ∨ b = some x → t ≤ x := by
      intro x hx
      cases hab : earlier a b with
      | none =>
        obtain ⟨rfl, rfl⟩ := earlier_eq_none hab
        simp at hx
      | some y =>
        obtain ⟨-, ha, hb⟩ := earlier_eq_some hab
        have hy := hacc y hab
        rcases hx with hx | hx
        · exact hy.trans (ha x hx)
        · exact hy.trans (hb x hx)
    refine ⟨?_, fun x hx => hboth x (Or.inl hx), fun x hx => ?_⟩
    · rcases hmem with hab | hl
      · exact (earlier_eq_some hab).1.imp id fun hb => by simp [hb]
      · exact Or.inr (List.mem_cons_of_mem _ hl)
    · rcases List.mem_cons.1 hx with hx | hx
      · exact hboth x (Or.inr hx.symm)
      · exact hrest x hx

theorem foldl_earlier_eq_none {l : List (Option Time)} {a : Option Time}
    (h : l.foldl earlier a = none) : a = none ∧ ∀ o ∈ l, o = none := by
  induction l generalizing a with
  | nil => exact ⟨h, by simp⟩
  | cons b l ih =>
    obtain ⟨hab, hl⟩ := ih h
    obtain ⟨ha, hb⟩ := earlier_eq_none hab
    exact ⟨ha, fun o ho => (List.mem_cons.1 ho).elim (fun h => h.trans hb) (hl o)⟩

/-- Somebody who waits for the end of a context is told why it has ended. -/
theorem error?_of_awaited? {cs : Contexts} {c : Context} {now : Time} {e : ContextError}
    (h : cs.awaited? c now = some e) : cs.error? c now = some e := by
  unfold awaited? at h
  unfold error?
  split
  · rename_i hcanceled
    rwa [if_pos hcanceled] at h
  · rename_i hlive
    rw [if_neg hlive] at h
    cases hdeadline : c.deadline with
    | none =>
      rw [hdeadline] at h
      cases h
    | some d =>
      rw [hdeadline] at h
      dsimp only at h ⊢
      split at h
      · rename_i hfired
        rwa [if_pos (Time.le_of_hasFired hfired)]
      · cases h

end Contexts

/-! ## Tasks that wait -/

namespace Task

variable {t : Task} {cs : Contexts} {now u : Time}

theorem awaited?_eq_none_iff (c : Context) :
    cs.awaited? c now = none ↔
      cs.isCanceled c.node = false ∧ ∀ d ∈ c.deadline, now.hasFired d = false := by
  unfold Contexts.awaited?
  cases hc : cs.isCanceled c.node <;> cases hd : c.deadline <;> simp

theorem raceEnd_eq_none_iff (come : Bool) (ended : Option ContextError) (dueWins : Bool)
    (onDue : Behaviour) (onEnd : ContextError → Behaviour) :
    raceEnd come ended dueWins onDue onEnd = none ↔ come = false ∧ ended = none := by
  cases come <;> cases ended <;> simp [raceEnd]

/-- A race goes on with what is due, with the end of the context, or, when both have come, by chance. -/
theorem raceEnd_eq_some {come dueWins : Bool} {ended : Option ContextError} {onDue next : Behaviour}
    {onEnd : ContextError → Behaviour} (h : raceEnd come ended dueWins onDue onEnd = some next) :
    (come = true ∧ ended = none ∧ next = onDue) ∨
      ∃ e, ended = some e ∧ (come = false ∧ next = onEnd e ∨
        come = true ∧ (next = onDue ∨ next = onEnd e)) := by
  cases come with
  | true =>
    cases ended with
    | none => exact Or.inl ⟨rfl, rfl, (Option.some.inj h).symm⟩
    | some e =>
      refine Or.inr ⟨e, rfl, Or.inr ⟨rfl, ?_⟩⟩
      obtain rfl := Option.some.inj h
      exact ite_eq_or_eq _ _ _
  | false =>
    cases ended with
    | none => cases h
    | some e => exact Or.inr ⟨e, rfl, Or.inl ⟨rfl, (Option.some.inj h).symm⟩⟩

theorem any_le_eq_false_iff {d : Option Time} : d.any (· ≤ now) = false ↔ ∀ x ∈ d, now < x := by
  cases d <;> simp

/-- A task that has ended takes no further step. -/
theorem step?_of_hasEnded (h : t.hasEnded = true) : t.step? cs now = none := by
  obtain ⟨name, c, started, progress⟩ := t
  rcases progress with b | ⟨r, e⟩ | p
  · cases h
  · rfl
  · rfl

theorem step?_sleepUntil {d : Time} {next : Behaviour}
    (hp : t.progress = .running (.sleepUntil d next)) :
    t.step? cs now = none ↔ now.hasFired d = false := by
  rw [step?, hp]
  show (if now.hasFired d = true then some _ else none) = none ↔ _
  rw [ite_eq_right_iff, Bool.eq_false_iff]
  exact forall_congr' fun _ => by simp

theorem step?_race {d : Option Time} {w : Bool} {onDue : Behaviour}
    {onEnd : ContextError → Behaviour} (hp : t.progress = .running (.race d w onDue onEnd)) :
    t.step? cs now = none ↔ (∀ x ∈ d, now < x) ∧
      cs.isCanceled t.context.node = false ∧ ∀ x ∈ t.context.deadline, now.hasFired x = false := by
  rw [step?, hp, ← awaited?_eq_none_iff, ← any_le_eq_false_iff]
  exact Option.map_eq_none_iff.trans (raceEnd_eq_none_iff _ _ _ _ _)

/-- **What a task that cannot take a step is waiting for**: for nothing, for a timer, or for something that is
due and the end of its context. -/
theorem blocked_cases (h : t.step? cs now = none) : t.hasEnded = true ∨
    (∃ d next, t.progress = .running (.sleepUntil d next)) ∨
    ∃ d w onDue onEnd, t.progress = .running (.race d w onDue onEnd) := by
  rw [hasEnded]
  rw [step?] at h
  cases hp : t.progress with
  | running b =>
    rw [hp] at h
    cases b with
    | sleepUntil d next => exact Or.inr (Or.inl ⟨d, next, rfl⟩)
    | race d w onDue onEnd => exact Or.inr (Or.inr ⟨d, w, onDue, onEnd, rfl⟩)
    | _ => cases h
  | _ => exact Or.inl rfl

theorem wakeUp?_of_hasEnded (h : t.hasEnded = true) : t.wakeUp? now = none := by
  obtain ⟨name, c, started, progress⟩ := t
  rcases progress with b | ⟨r, e⟩ | p
  · cases h
  · rfl
  · rfl

/-- **A wait ends at the time that the task has named for it.** -/
theorem step?_of_wakeUp? (h : t.wakeUp? now = some u) : t.step? cs u ≠ none := by
  intro hnone
  rcases blocked_cases hnone with hend | ⟨d, next, hp⟩ | ⟨d, w, a, b, hp⟩
  · rw [wakeUp?_of_hasEnded hend] at h
    cases h
  · have hd := (step?_sleepUntil hp).1 hnone
    rw [wakeUp?, hp] at h
    obtain rfl := Option.some.inj h
    rw [Time.hasFired_wakeUp] at hd
    cases hd
  · obtain ⟨hd, -, hc⟩ := (step?_race hp).1 hnone
    rw [wakeUp?, hp] at h
    rcases (Contexts.earlier_eq_some h).1 with h | h
    · obtain ⟨x, hx, rfl⟩ := Option.map_eq_some_iff.1 h
      exact (hd x hx).not_ge (le_max_right _ _)
    · obtain ⟨x, hx, rfl⟩ := Option.map_eq_some_iff.1 h
      have hnot := hc x hx
      rw [Time.hasFired_wakeUp] at hnot
      cases hnot

theorem le_wakeUp? (h : t.wakeUp? now = some u) : now ≤ u := by
  unfold wakeUp? at h
  split at h
  · obtain rfl := Option.some.inj h
    exact Time.le_wakeUp _ _
  · rcases (Contexts.earlier_eq_some h).1 with h | h
    · obtain ⟨x, -, rfl⟩ := Option.map_eq_some_iff.1 h
      exact le_max_left _ _
    · obtain ⟨x, -, rfl⟩ := Option.map_eq_some_iff.1 h
      exact Time.le_wakeUp _ _
  · cases h

/-- What is due after some time has not come by then, and is still waited for until the same time. -/
theorem due_of_later {d : Option Time} (hl : now ≤ u) (hu : ∀ x ∈ d.map (max now), u < x) :
    (∀ x ∈ d, u < x) ∧ d.map (max u) = d.map (max now) := by
  cases d with
  | none => exact ⟨nofun, rfl⟩
  | some d =>
    have hlt : u < d := (lt_max_iff.1 (hu _ rfl)).resolve_left hl.not_gt
    refine ⟨fun x hx => ?_, ?_⟩
    · obtain rfl := Option.some.inj hx
      exact hlt
    · rw [Option.map_some, Option.map_some, max_eq_right hlt.le, max_eq_right (hl.trans hlt.le)]

/-- So it is with a timer, which is due at its tick. -/
theorem timer_of_later {d : Option Time} (hl : now ≤ u) (hu : ∀ x ∈ d.map now.wakeUp, u < x) :
    (∀ x ∈ d, u.hasFired x = false) ∧ d.map u.wakeUp = d.map now.wakeUp := by
  have hticks : ∀ s : Time, d.map s.wakeUp = (d.map Time.goesOff).map (max s) :=
    fun s => (Option.map_map _ _ _).symm
  rw [hticks] at hu
  obtain ⟨hnot, hsame⟩ := due_of_later hl hu
  refine ⟨fun x hx => ?_, by rw [hticks, hticks, hsame]⟩
  rw [Bool.eq_false_iff, Ne, Time.hasFired_iff, not_le]
  exact hnot _ (Option.mem_map_of_mem _ hx)

/-- **A wait does not end before.**  At a stop in between the task still waits, and for the same
time. -/
theorem stays_blocked (h : t.step? cs now = none) (hl : now ≤ u)
    (hu : ∀ x ∈ t.wakeUp? now, u < x) :
    t.step? cs u = none ∧ t.wakeUp? u = t.wakeUp? now := by
  rcases blocked_cases h with hend | ⟨d, next, hp⟩ | ⟨d, w, a, b, hp⟩
  · exact ⟨step?_of_hasEnded hend, by rw [wakeUp?_of_hasEnded hend, wakeUp?_of_hasEnded hend]⟩
  · have hw : ∀ s : Time, t.wakeUp? s = (some d).map s.wakeUp := fun s => by
      rw [wakeUp?, hp, Option.map_some]
    rw [hw] at hu
    obtain ⟨hfired, hsame⟩ := timer_of_later hl hu
    have hd : u.hasFired d = false := hfired d (Option.mem_some_self d)
    refine ⟨(step?_sleepUntil hp).2 hd, ?_⟩
    rw [hw, hw, hsame]
  · have hw : ∀ s : Time, t.wakeUp? s =
        Contexts.earlier (d.map (max s)) (t.context.deadline.map s.wakeUp) := fun s => by
      rw [wakeUp?, hp]
    rw [hw] at hu
    have hboth : (∀ x ∈ d.map (max now), u < x) ∧
        ∀ x ∈ t.context.deadline.map now.wakeUp, u < x := by
      cases he : Contexts.earlier (d.map (max now)) (t.context.deadline.map now.wakeUp) with
      | none =>
        obtain ⟨hd, hdl⟩ := Contexts.earlier_eq_none he
        rw [hd, hdl]
        simp
      | some y =>
        obtain ⟨-, hd, hdl⟩ := Contexts.earlier_eq_some he
        have hy : u < y := hu y he
        exact ⟨fun x hx => hy.trans_le (hd x hx), fun x hx => hy.trans_le (hdl x hx)⟩
    obtain ⟨hnot, hsame⟩ := due_of_later hl hboth.1
    obtain ⟨hfired, hsame'⟩ := timer_of_later hl hboth.2
    refine ⟨(step?_race hp).2 ⟨hnot, ((step?_race hp).1 h).2.1, hfired⟩, ?_⟩
    rw [hw, hw, hsame, hsame']

end Task

/-! ## What a step does -/

/-- Every node of a tree satisfies `P`. -/
inductive Behaviour.Always (P : Behaviour → Prop) : Behaviour → Prop where
  | intro {b : Behaviour} (root : P b) (below : ∀ c, Next c b → Always P c) : Always P b

/-- A node that does not cancel. -/
def Behaviour.KeepsContext (b : Behaviour) : Prop := ∀ next, b ≠ .cancel next

namespace Task

/-- All that is left for a task to do satisfies `P`. -/
def Always (P : Behaviour → Prop) (t : Task) : Prop :=
  ∀ b, t.progress = .running b → b.Always P

variable {t : Task} {cs : Contexts} {now : Time} {s : Step} {P : Behaviour → Prop}

theorem always_step (ht : t.Always P) (hs : t.step? cs now = some s) :
    Task.Always P { t with progress := s.progress } := by
  intro b hb
  cases nearer_of_step? hs with
  | running hb' hc hnext =>
    obtain rfl := Progress.running.inj (hb.symm.trans hb')
    cases ht _ hc with
    | intro _ below => exact below _ hnext
  | ended hend _ =>
    rw [hasEnded, hb] at hend
    cases hend

/-- A step does nothing to the contexts but to cancel the task's own one. -/
theorem step?_contexts (hs : t.step? cs now = some s) :
    s.contexts = cs ∨ s.contexts = cs.cancelNode t.context.node ∧
      ∃ next, t.progress = .running (.cancel next) := by
  unfold step? at hs
  split at hs
  case h_4 next hp =>
    cases hs
    exact Or.inr ⟨rfl, next, hp⟩
  case h_6 =>
    split at hs
    · cases hs
      exact Or.inl rfl
    · cases hs
  case h_7 =>
    obtain ⟨_, -, rfl⟩ := Option.map_eq_some_iff.1 hs
    exact Or.inl rfl
  all_goals cases hs <;> exact Or.inl rfl

/-- **A step is a report, which is judged, or it logs nothing and brings no result.** -/
theorem step?_reports (hs : t.step? cs now = some s) :
    (∃ o, t.progress = .running (.finish o) ∧ s.contexts = cs ∧
      s.progress = .returned (o.judge t.name (cs.error? t.context now) (now - t.started)).1
        (now - t.started) ∧
      s.entries = (o.judge t.name (cs.error? t.context now) (now - t.started)).2) ∨
    s.entries = [] ∧ ∀ result elapsed, s.progress ≠ .returned result elapsed := by
  unfold step? at hs
  split at hs
  case h_1 o hp =>
    cases hs
    exact Or.inl ⟨o, hp, rfl, rfl, rfl⟩
  case h_6 =>
    split at hs
    · cases hs
      exact Or.inr ⟨rfl, nofun⟩
    · cases hs
  case h_7 =>
    obtain ⟨_, -, rfl⟩ := Option.map_eq_some_iff.1 hs
    exact Or.inr ⟨rfl, nofun⟩
  all_goals cases hs <;> exact Or.inr ⟨rfl, nofun⟩

end Task

end HealthService
