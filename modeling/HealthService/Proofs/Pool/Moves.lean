import HealthService.Check.Pool
import HealthService.Proofs.Check.Steps
import HealthService.Proofs.Contexts.Forest

/-!
# What a pool may do

`Pool.Moves` leaves the order open in which checks take their steps.  This file says once what a
move can be, and what every move keeps.

* `moves_cases` — **a move is a planned cancellation, a step of one task, or the passing of time**;
  `Pool.put` is the pool after a step, with the task known by its place.
* `cancels_moves` — a move does nothing to the contexts but to cancel one of them, so that the forest
  stays well formed and every context in its place, and what is cancelled stays so
  (`wellFormed_of_cancels`, `lineage_of_cancels`, `isCanceled_of_cancels`).
* `task_reaches` — a task keeps its name, its context and its start, and stays ended once it is.
* `moves_wellFounded` — **every sequence of moves comes to an end**.
* `run_reaches` — `Pool.run` is one of these sequences, and goes on until somebody has seen enough
  or nothing can happen any more.
-/

namespace HealthService

namespace Pool

/-! ## What a move is -/

/-- The pool after a step of the task at some place. -/
def put (p : Pool) (k : Nat) (t : Task) (s : Task.Step) : Pool :=
  { p with
    contexts := s.contexts
    tasks := p.tasks.set k { t with progress := s.progress }
    acts := p.acts ++ s.acts
    log := p.log ++ s.entries }

theorem withStep_eq_put {p : Pool} {before after : List Task} {t : Task}
    (h : p.tasks = before ++ t :: after) (s : Task.Step) :
    p.withStep before t after s = p.put before.length t s := by
  simp [withStep, put, h]

theorem moves_put {p : Pool} {k : Nat} {t : Task} {s : Task.Step} (hk : p.tasks[k]? = some t)
    (hs : t.step? p.contexts p.now = some s) : Moves p (p.put k t s) := by
  obtain ⟨hlt, rfl⟩ := List.getElem?_eq_some_iff.1 hk
  have hsplit : p.tasks = p.tasks.take k ++ p.tasks[k] :: p.tasks.drop (k + 1) := by
    rw [List.getElem_cons_drop hlt, List.take_append_drop]
  have hmove := Moves.task hsplit hs
  rwa [withStep_eq_put hsplit, List.length_take_of_le hlt.le] at hmove

/-- **A move is a planned cancellation, a step of one task, or the passing of time.** -/
theorem moves_cases {p q : Pool} (h : Moves p q) :
    (∃ before x after, p.plans = before ++ x :: after ∧ p.now.hasFired x.time = true ∧
      q = { p with contexts := p.contexts.cancelNode x.node, plans := before ++ after }) ∨
    (∃ k t s, p.tasks[k]? = some t ∧ t.step? p.contexts p.now = some s ∧ q = p.put k t s) ∨
    (∃ t, p.step? = none ∧ p.next? = some t ∧ q = p.atTime t) := by
  cases h with
  | plan h due => exact Or.inl ⟨_, _, _, h, due, rfl⟩
  | task h hs =>
    refine Or.inr (Or.inl ⟨_, _, _, ?_, hs, withStep_eq_put h _⟩)
    rw [h, List.getElem?_append_right le_rfl, Nat.sub_self, List.getElem?_cons_zero]
  | time idle h => exact Or.inr (Or.inr ⟨_, idle, h, rfl⟩)

/-- Some sequence of moves leads from one pool to another one. -/
abbrev Reaches : Pool → Pool → Prop := Relation.ReflTransGen Moves

/-! ## What moves keep -/

section Frames

variable {p q : Pool}

/-- What any step of a pool may do to its contexts: nothing, or cancel one of them. -/
def Cancels (p q : Pool) : Prop :=
  q.contexts = p.contexts ∨ ∃ m, q.contexts = p.contexts.cancelNode m

theorem wellFormed_of_cancels (h : Relation.ReflTransGen Cancels p q) (hp : p.contexts.WellFormed) :
    q.contexts.WellFormed := by
  induction h with
  | refl => exact hp
  | tail _ hm ih =>
    rcases hm with hc | ⟨m, hc⟩ <;> rw [hc]
    · exact ih
    · exact Contexts.wellFormed_cancelNode ih m

theorem length_of_cancels (h : Relation.ReflTransGen Cancels p q) :
    q.contexts.nodes.length = p.contexts.nodes.length := by
  induction h with
  | refl => rfl
  | tail _ hm ih =>
    rw [← ih]
    rcases hm with hc | ⟨m, hc⟩ <;> rw [hc]
    exact Contexts.length_cancelNode _ m

theorem lineage_of_cancels (h : Relation.ReflTransGen Cancels p q) (n : Nat) :
    q.contexts.lineage n = p.contexts.lineage n := by
  induction h with
  | refl => rfl
  | tail _ hm ih =>
    rw [← ih]
    rcases hm with hc | ⟨m, hc⟩ <;> rw [hc]
    exact Contexts.lineage_cancelNode _ m n

/-- A context that is cancelled stays so. -/
theorem isCanceled_of_cancels (h : Relation.ReflTransGen Cancels p q) (hp : p.contexts.WellFormed)
    {n : Nat} (hn : p.contexts.isCanceled n = true) : q.contexts.isCanceled n = true := by
  induction h with
  | refl => exact hn
  | tail hr hm ih =>
    rcases hm with hc | ⟨m, hc⟩ <;> rw [hc]
    · exact ih
    · exact (Contexts.isCanceled_cancelNode (wellFormed_of_cancels hr hp) m n).2 (Or.inl ih)

/-- A move does nothing to the contexts but to cancel one of them. -/
theorem cancels_moves (h : Moves p q) : Cancels p q := by
  rcases moves_cases h with ⟨_, x, _, -, -, rfl⟩ | ⟨_, t, s, -, hs, rfl⟩ | ⟨_, -, -, rfl⟩
  · exact Or.inr ⟨x.node, rfl⟩
  · exact (Task.step?_contexts hs).imp id fun hc => ⟨_, hc.1⟩
  · exact Or.inl rfl

theorem cancels_reaches (h : Reaches p q) : Relation.ReflTransGen Cancels p q :=
  Relation.ReflTransGen.mono (fun _ _ => cancels_moves) _ _ h

/-- A move leaves a task as it is, or is a step of that task. -/
theorem task_moves (h : Moves p q) {k : Nat} {t : Task} (hk : p.tasks[k]? = some t) :
    q.tasks[k]? = some t ∨ ∃ s, t.step? p.contexts p.now = some s ∧ q = p.put k t s := by
  rcases moves_cases h with ⟨_, _, _, -, -, rfl⟩ | ⟨j, u, s, hj, hs, rfl⟩ | ⟨_, -, -, rfl⟩
  · exact Or.inl hk
  · by_cases hjk : j = k
    · subst hjk
      obtain rfl := Option.some.inj (hk.symm.trans hj)
      exact Or.inr ⟨s, hs, rfl⟩
    · refine Or.inl ?_
      show (p.tasks.set j _)[k]? = some t
      rwa [List.getElem?_set_ne hjk]
  · exact Or.inl hk

theorem length_tasks_moves (h : Moves p q) : q.tasks.length = p.tasks.length := by
  rcases moves_cases h with ⟨_, _, _, -, -, rfl⟩ | ⟨_, _, _, -, -, rfl⟩ | ⟨_, -, -, rfl⟩
  · rfl
  · exact List.length_set
  · rfl

theorem getElem?_put {k : Nat} {t : Task} (hk : p.tasks[k]? = some t) (s : Task.Step) :
    (p.put k t s).tasks[k]? = some { t with progress := s.progress } :=
  List.getElem?_set_self (List.getElem?_eq_some_iff.1 hk).1

theorem length_tasks_reaches (h : Reaches p q) : q.tasks.length = p.tasks.length := by
  induction h with
  | refl => rfl
  | tail _ hm ih => exact (length_tasks_moves hm).trans ih

/-- A task keeps its name, its context and its start, and once it has ended it stays as it is. -/
theorem task_reaches (h : Reaches p q) {k : Nat} {t : Task} (hk : p.tasks[k]? = some t) :
    ∃ g, q.tasks[k]? = some { t with progress := g } ∧ (t.hasEnded = true → g = t.progress) := by
  induction h with
  | refl => exact ⟨_, hk, fun _ => rfl⟩
  | tail _ hm ih =>
    obtain ⟨g, hg, hend⟩ := ih
    rcases task_moves hm hg with h | ⟨s, hs, rfl⟩
    · exact ⟨g, h, hend⟩
    · refine ⟨_, getElem?_put hg s, fun ht => ?_⟩
      have hstay : Task.hasEnded { t with progress := g } = true := by rw [hend ht]; exact ht
      rw [Task.step?_of_hasEnded hstay] at hs
      cases hs

/-- **A task that has ended did so by a step of its own.** -/
theorem exists_last_step (h : Reaches p q) {k : Nat} {t u : Task} (hk : p.tasks[k]? = some t)
    (hlive : t.hasEnded = false) (hu : q.tasks[k]? = some u) (hend : u.hasEnded = true) :
    ∃ m g s, Reaches p m ∧ m.tasks[k]? = some { t with progress := g } ∧
      Task.step? { t with progress := g } m.contexts m.now = some s ∧
      Reaches (m.put k { t with progress := g } s) q ∧ u = { t with progress := s.progress } := by
  induction h generalizing u with
  | refl =>
    obtain rfl := Option.some.inj (hk.symm.trans hu)
    rw [hlive] at hend
    cases hend
  | tail hr hm ih =>
    obtain ⟨g, hg, -⟩ := task_reaches hr hk
    rcases task_moves hm hg with hstay | ⟨s, hs, rfl⟩
    · obtain rfl := Option.some.inj (hstay.symm.trans hu)
      obtain ⟨m, g', s, hreach, hm', hs, hrest, heq⟩ := ih hg hend
      exact ⟨m, g', s, hreach, hm', hs, hrest.tail hm, heq⟩
    · refine ⟨_, g, s, hr, hg, hs, .refl, ?_⟩
      exact Option.some.inj (hu.symm.trans (getElem?_put hg s))

end Frames

/-! ## Every sequence of moves comes to an end -/

theorem cancelFirst?_eq_some {p q : Pool} {before xs : List Plan}
    (h : p.cancelFirst? before xs = some q) : ∃ init x after, before ++ xs = init ++ x :: after ∧
      p.now.hasFired x.time = true ∧
      q = { p with contexts := p.contexts.cancelNode x.node, plans := init ++ after } := by
  induction xs generalizing before with
  | nil => cases h
  | cons x after ih =>
    rw [cancelFirst?] at h
    split at h
    · rename_i hx
      exact ⟨before, x, after, rfl, hx, (Option.some.inj h).symm⟩
    · obtain ⟨init, y, rest, heq, hy⟩ := ih h
      exact ⟨init, y, rest, by rw [← heq]; simp, hy⟩

theorem cancelFirst?_eq_none {p : Pool} {before xs : List Plan}
    (h : p.cancelFirst? before xs = none) : ∀ x ∈ xs, p.now.hasFired x.time = false := by
  induction xs generalizing before with
  | nil => simp
  | cons x after ih =>
    rw [cancelFirst?] at h
    split at h
    · cases h
    · rename_i hx
      exact List.forall_mem_cons.2 ⟨Bool.eq_false_iff.2 hx, ih h⟩

/-- It is the first task of those that can take a step that does. -/
theorem stepFirst?_eq_some {p q : Pool} {before ts : List Task}
    (h : p.stepFirst? before ts = some q) : ∃ init t after s, before ++ ts = init ++ t :: after ∧
      t.step? p.contexts p.now = some s ∧ q = p.withStep init t after s ∧
      ((∀ u ∈ before, u.step? p.contexts p.now = none) →
        ∀ u ∈ init, u.step? p.contexts p.now = none) := by
  induction ts generalizing before with
  | nil => cases h
  | cons t after ih =>
    rw [stepFirst?] at h
    split at h
    · rename_i s hs
      exact ⟨before, t, after, s, rfl, hs, (Option.some.inj h).symm, id⟩
    · rename_i hblocked
      obtain ⟨init, u, rest, s, heq, hu, hq, hfirst⟩ := ih h
      refine ⟨init, u, rest, s, by rw [← heq]; simp, hu, hq, fun hbefore => hfirst fun v hv => ?_⟩
      rcases List.mem_append.1 hv with hv | hv
      · exact hbefore v hv
      · rwa [List.mem_singleton.1 hv]

theorem stepFirst?_eq_none {p : Pool} {before ts : List Task}
    (h : p.stepFirst? before ts = none) : ∀ t ∈ ts, t.step? p.contexts p.now = none := by
  induction ts generalizing before with
  | nil => simp
  | cons t after ih =>
    rw [stepFirst?] at h
    split at h
    · cases h
    · rename_i hs
      exact List.forall_mem_cons.2 ⟨hs, ih h⟩

/-- **What happens of itself is a move**, and a planned cancellation if one is due. -/
theorem moves_of_step? {p q : Pool} (h : p.step? = some q) :
    Moves p q ∧ ((∃ x ∈ p.plans, p.now.hasFired x.time = true) → q.plans ≠ p.plans) := by
  unfold step? at h
  split at h
  · rename_i r hr
    obtain rfl := Option.some.inj h
    obtain ⟨init, x, after, heq, hx, rfl⟩ := cancelFirst?_eq_some hr
    refine ⟨.plan heq hx, fun _ hplans => ?_⟩
    have := congrArg List.length (hplans.trans heq)
    simp at this
  · rename_i hnone
    obtain ⟨init, t, after, s, heq, hs, rfl, -⟩ := stepFirst?_eq_some h
    refine ⟨.task heq hs, ?_⟩
    rintro ⟨x, hx, hdue⟩
    rw [cancelFirst?_eq_none hnone x hx] at hdue
    cases hdue

/-- Nothing happens of itself iff no plan is due and all tasks wait. -/
theorem step?_eq_none_iff {p : Pool} : p.step? = none ↔
    (∀ x ∈ p.plans, p.now.hasFired x.time = false) ∧
      ∀ t ∈ p.tasks, t.step? p.contexts p.now = none := by
  constructor
  · intro h
    unfold step? at h
    split at h
    · cases h
    · rename_i hnone
      exact ⟨cancelFirst?_eq_none hnone, stepFirst?_eq_none h⟩
  · rintro ⟨hplans, htasks⟩
    cases h : p.step? with
    | none => rfl
    | some q =>
      rcases moves_cases (moves_of_step? h).1 with
        ⟨before, x, after, hx, hdue, -⟩ | ⟨k, t, s, hk, hs, -⟩ | ⟨_, hidle, -⟩
      · rw [hplans x (by simp [hx])] at hdue
        cases hdue
      · rw [htasks t (List.mem_of_getElem? hk)] at hs
        cases hs
      · exact hidle.symm.trans h |>.symm

/-! ## The passing of time -/

theorem next?_eq_some {p : Pool} {u : Time} (h : p.next? = some u) :
    ((∃ t ∈ p.tasks, t.wakeUp? p.now = some u) ∨ ∃ x ∈ p.plans, p.now.wakeUp x.time = u) ∧
      (∀ t ∈ p.tasks, ∀ x ∈ t.wakeUp? p.now, u ≤ x) ∧
      ∀ x ∈ p.plans, u ≤ p.now.wakeUp x.time := by
  obtain ⟨hmem, -, hle⟩ := Contexts.foldl_earlier_eq_some h
  refine ⟨?_, fun t ht x hx => hle x ?_, fun x hx => hle _ ?_⟩
  · rcases List.mem_append.1 (hmem.resolve_left (by simp)) with hm | hm
    · obtain ⟨t, ht, htu⟩ := List.mem_map.1 hm
      exact Or.inl ⟨t, ht, htu⟩
    · obtain ⟨x, hx, hxu⟩ := List.mem_map.1 hm
      exact Or.inr ⟨x, hx, Option.some.inj hxu⟩
  · exact List.mem_append.2 (Or.inl (List.mem_map.2 ⟨t, ht, hx⟩))
  · exact List.mem_append.2 (Or.inr (List.mem_map.2 ⟨x, hx, rfl⟩))

theorem next?_eq_none {p : Pool} (h : p.next? = none) :
    (∀ t ∈ p.tasks, t.wakeUp? p.now = none) ∧ p.plans = [] := by
  obtain ⟨-, hnone⟩ := Contexts.foldl_earlier_eq_none h
  refine ⟨fun t ht => hnone _ (List.mem_append.2 (Or.inl (List.mem_map.2 ⟨t, ht, rfl⟩))), ?_⟩
  refine List.eq_nil_iff_forall_not_mem.2 fun x hx => ?_
  have := hnone _ (List.mem_append.2 (Or.inr (List.mem_map.2 ⟨x, hx, rfl⟩)))
  cases this

theorem le_next? {p : Pool} {u : Time} (h : p.next? = some u) : p.now ≤ u := by
  rcases (next?_eq_some h).1 with ⟨t, -, ht⟩ | ⟨x, -, rfl⟩
  · exact Task.le_wakeUp? ht
  · exact Time.le_wakeUp _ _

theorem idle_atTime {p : Pool} {u : Time} : (p.atTime u).step? = none ↔
    (∀ x ∈ p.plans, u.hasFired x.time = false) ∧ ∀ t ∈ p.tasks, t.step? p.contexts u = none :=
  step?_eq_none_iff

/-- When time has passed something happens. -/
theorem step?_atTime {p : Pool} {u : Time} (h : p.next? = some u) : (p.atTime u).step? ≠ none := by
  intro hnone
  obtain ⟨hplans, htasks⟩ := idle_atTime.1 hnone
  rcases (next?_eq_some h).1 with ⟨t, ht, hu⟩ | ⟨x, hx, hu⟩
  · exact Task.step?_of_wakeUp? hu (htasks t ht)
  · have hdue := hplans x hx
    rw [← hu, Time.hasFired_wakeUp] at hdue
    cases hdue

/-- A move; unless the order is free, it has to be a planned cancellation as long as one is due. -/
def Turns (free : Bool) (p q : Pool) : Prop :=
  Moves p q ∧ (free = false → (∃ x ∈ p.plans, p.now.hasFired x.time = true) → q.plans ≠ p.plans)

theorem turns_of_step? {p q : Pool} (h : p.step? = some q) (free : Bool) : Turns free p q :=
  ⟨(moves_of_step? h).1, fun _ => (moves_of_step? h).2⟩

theorem turns_time {p : Pool} {u : Time} (hidle : p.step? = none) (hu : p.next? = some u)
    (free : Bool) : Turns free p (p.atTime u) := by
  refine ⟨.time hidle hu, ?_⟩
  rintro - ⟨x, hx, hdue⟩
  rw [(step?_eq_none_iff.1 hidle).1 x hx] at hdue
  cases hdue

/-- **A run without a limit takes turns until somebody has seen enough or nothing can happen.** -/
theorem run_reaches (enough : Pool → Bool) (p : Pool) :
    Relation.ReflTransGen (Turns false) p (p.run enough none) ∧
      (enough (p.run enough none) = true ∨
        (p.run enough none).step? = none ∧ (p.run enough none).next? = none) := by
  induction p using rank.wf.induction with
  | _ p ih =>
    rw [run]
    split
    · rename_i henough
      exact ⟨.refl, Or.inl henough⟩
    · split
      · rename_i q hq
        obtain ⟨hreach, hend⟩ := ih q (step?_decreases hq)
        exact ⟨.head (turns_of_step? hq false) hreach, hend⟩
      · rename_i hidle
        split
        · rename_i hnext
          exact ⟨.refl, Or.inr ⟨hidle, hnext⟩⟩
        · rename_i u hu
          rw [if_neg (by simp [isBeyond])]
          split
          · rename_i q hq
            have hless : rank.rel q p := step?_decreases (p := p.atTime u) hq
            obtain ⟨hreach, hend⟩ := ih q hless
            exact ⟨.head (turns_time hidle hu false) (.head (turns_of_step? hq false) hreach), hend⟩
          · rename_i hnone
            exact absurd hnone (step?_atTime hu)

/-! Equations by which a run is followed. -/

theorem run_of_enough {enough : Pool → Bool} {limit : Option Time} {p : Pool}
    (h : enough p = true) : p.run enough limit = p := by
  rw [run, if_pos h]

theorem run_of_step {enough : Pool → Bool} {limit : Option Time} {p q : Pool}
    (h : enough p = false) (hq : p.step? = some q) :
    p.run enough limit = q.run enough limit := by
  rw [run, if_neg (by simp [h])]
  split
  · rename_i r hr
    rw [Option.some.inj (hr.symm.trans hq)]
  · rename_i hr
    rw [hr] at hq
    cases hq

theorem run_of_time {enough : Pool → Bool} {limit : Option Time} {p q : Pool} {u : Time}
    (h : enough p = false) (hidle : p.step? = none) (hu : p.next? = some u)
    (hin : p.isBeyond limit u = false) (hq : (p.atTime u).step? = some q) :
    p.run enough limit = q.run enough limit := by
  rw [run, if_neg (by simp [h])]
  split
  · rename_i r hr
    rw [hidle] at hr
    cases hr
  · split
    · rename_i hnext
      rw [hnext] at hu
      cases hu
    · rename_i v hv
      obtain rfl := Option.some.inj (hu.symm.trans hv)
      rw [if_neg (by simp [hin])]
      split
      · rename_i r hr
        rw [Option.some.inj (hr.symm.trans hq)]
      · rename_i hr
        rw [hr] at hq
        cases hq

/-- A run is over when nothing more comes, or nothing more that comes in time. -/
theorem run_of_limit {enough : Pool → Bool} {limit : Option Time} {p : Pool} (h : enough p = false)
    (hidle : p.step? = none) (hlast : ∀ u ∈ p.next?, p.isBeyond limit u = true) :
    p.run enough limit = p.atLimit limit := by
  rw [run, if_neg (by simp [h])]
  split
  · rename_i r hr
    rw [hidle] at hr
    cases hr
  · split
    · rfl
    · rename_i v hv
      rw [if_pos (hlast v hv)]

theorem hasEnded_of_hasEndedFrom {p : Pool} {first k : Nat} {t : Task}
    (h : p.hasEndedFrom first = true) (hk : first ≤ k) (ht : p.tasks[k]? = some t) :
    t.hasEnded = true := by
  refine List.all_eq_true.1 h t (List.mem_of_getElem? (i := k - first) ?_)
  rwa [List.getElem?_drop, Nat.add_sub_cancel' hk]

end Pool
end HealthService
