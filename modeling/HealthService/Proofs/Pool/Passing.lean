import HealthService.Proofs.Pool.Moves

/-!
# Pools that somebody looks at

Somebody outside may look at a pool, or do something to its contexts, at any time, also at one at
which nothing happens of itself.  `Pool.Goes` therefore allows the clock to stop anywhere on its way
to the next event, and `Pool.Passes` is a sequence of such steps.

* `goes_cases` — what a step can be: a planned cancellation, a step of one task, or the passing of
  some time.
* `cancels_goes`, `task_passes`, `keeps_passes` — what they keep.
* `log_passes` — **the checks log nothing but what concerns a single check**.
* `run_passes` — every run is such a sequence, also one that ends with somebody's patience.
-/

namespace HealthService
namespace Pool

/-! ## Steps -/

/-- What may happen next to a pool, or the passing of time until somebody looks. -/
inductive Goes : Pool → Pool → Prop where
  | moves {p q : Pool} (h : Moves p q) : Goes p q
  | waits {p : Pool} {u : Time} (idle : p.step? = none) (later : p.now ≤ u)
      (early : ∀ x ∈ p.next?, u ≤ x) : Goes p (p.atTime u)

/-- Some sequence of steps leads from one pool to another one. -/
abbrev Passes : Pool → Pool → Prop := Relation.ReflTransGen Goes

variable {p q : Pool}

/-- **A step is a planned cancellation, a step of one task, or the passing of some time.** -/
theorem goes_cases (h : Goes p q) :
    (∃ before x after, p.plans = before ++ x :: after ∧ p.now.hasFired x.time = true ∧
      q = { p with contexts := p.contexts.cancelNode x.node, plans := before ++ after }) ∨
    (∃ k t s, p.tasks[k]? = some t ∧ t.step? p.contexts p.now = some s ∧ q = p.put k t s) ∨
    ∃ u, p.step? = none ∧ p.now ≤ u ∧ (∀ x ∈ p.next?, u ≤ x) ∧ q = p.atTime u := by
  cases h with
  | moves h =>
    refine (moves_cases h).imp id (Or.imp id ?_)
    rintro ⟨u, hidle, hu, rfl⟩
    refine ⟨u, hidle, le_next? hu, fun x hx => ?_, rfl⟩
    exact (Option.some.inj (hu.symm.trans hx)).le
  | waits idle later early => exact Or.inr (Or.inr ⟨_, idle, later, early, rfl⟩)

/-- A time is early if nobody wakes up before it and no plan is due before it. -/
theorem early_iff {u : Time} : (∀ x ∈ p.next?, u ≤ x) ↔
    (∀ t ∈ p.tasks, ∀ x ∈ t.wakeUp? p.now, u ≤ x) ∧ ∀ x ∈ p.plans, u ≤ p.now.wakeUp x.time := by
  cases hnext : p.next? with
  | none =>
    obtain ⟨htasks, hplans⟩ := next?_eq_none hnext
    simp +contextual [htasks, hplans]
  | some v =>
    obtain ⟨hmem, htasks, hplans⟩ := next?_eq_some hnext
    constructor
    · intro h
      have hu : u ≤ v := h v rfl
      exact ⟨fun t ht x hx => hu.trans (htasks t ht x hx), fun x hx => hu.trans (hplans x hx)⟩
    · rintro ⟨htasks', hplans'⟩ x hx
      obtain rfl := Option.some.inj hx
      rcases hmem with ⟨t, ht, hv⟩ | ⟨y, hy, rfl⟩
      · exact htasks' t ht _ hv
      · exact hplans' y hy

/-- **A stop before anything happens makes no difference**: nothing happens at it either, and what
comes next comes when it would have. -/
theorem stays_idle {u : Time} (hidle : p.step? = none) (hl : p.now ≤ u)
    (hu : ∀ x ∈ p.next?, u < x) : (p.atTime u).step? = none ∧ (p.atTime u).next? = p.next? := by
  obtain ⟨htasks, hplans⟩ := early_iff.1 fun x hx => Nat.succ_le_of_lt (hu x hx)
  obtain ⟨hquiet, hblocked⟩ := step?_eq_none_iff.1 hidle
  have hstay : ∀ t ∈ p.tasks, t.step? p.contexts u = none ∧ t.wakeUp? u = t.wakeUp? p.now :=
    fun t ht => Task.stays_blocked (hblocked t ht) hl fun x hx => Nat.lt_of_succ_le (htasks t ht x hx)
  constructor
  · refine idle_atTime.2 ⟨fun x hx => ?_, fun t ht => (hstay t ht).1⟩
    exact Time.hasFired_eq_false_of_lt hl (Nat.lt_of_succ_le (hplans x hx))
  · have hwake : p.tasks.map (·.wakeUp? u) = p.tasks.map (·.wakeUp? p.now) :=
      List.map_congr_left fun t ht => (hstay t ht).2
    have hdue : p.plans.map (fun x => some (u.wakeUp x.time)) =
        p.plans.map fun x => some (p.now.wakeUp x.time) :=
      List.map_congr_left fun x hx =>
        congrArg some (Time.wakeUp_of_le hl (Nat.lt_of_succ_le (hplans x hx)).le)
    show List.foldl Contexts.earlier none (p.tasks.map (·.wakeUp? u) ++
      p.plans.map fun x => some (u.wakeUp x.time)) = _
    rw [hwake, hdue]
    rfl

/-! ## What steps keep -/

/-- A step does nothing to the contexts but to cancel one of them. -/
theorem cancels_goes (h : Goes p q) : Cancels p q := by
  cases h with
  | moves h => exact cancels_moves h
  | waits => exact Or.inl rfl

theorem cancels_passes (h : Passes p q) : Relation.ReflTransGen Cancels p q :=
  Relation.ReflTransGen.mono (fun _ _ => cancels_goes) _ _ h

theorem isCanceled_goes (h : Goes p q) {n : Nat} (hn : p.contexts.isCanceled n = true) :
    q.contexts.isCanceled n = true := by
  rcases cancels_goes h with hc | ⟨m, hc⟩ <;> rw [hc]
  · exact hn
  · exact Contexts.isCanceled_cancelNode_of _ m hn

theorem isCanceled_passes (h : Passes p q) {n : Nat} (hn : p.contexts.isCanceled n = true) :
    q.contexts.isCanceled n = true := by
  induction h with
  | refl => exact hn
  | tail _ hg ih => exact isCanceled_goes hg ih

/-- Time passes only when there is nothing else to do. -/
theorem now_goes (h : Goes p q) : q.now = p.now ∨ p.step? = none := by
  rcases goes_cases h with ⟨_, _, _, -, -, rfl⟩ | ⟨_, _, _, -, -, rfl⟩ | ⟨_, hidle, -, -, rfl⟩
  · exact Or.inl rfl
  · exact Or.inl rfl
  · exact Or.inr hidle

/-- What a context says at one instant it does not take back. -/
theorem error?_passes (h : Passes p q) (hnow : q.now = p.now) {c : Context}
    (hp : p.contexts.error? c p.now ≠ none) : q.contexts.error? c q.now ≠ none := by
  rw [Ne, Contexts.error?_eq_none_iff, not_and_or, not_not, not_not] at hp ⊢
  rw [hnow]
  exact hp.imp (isCanceled_passes h) id

theorem length_tasks_passes (h : Passes p q) : q.tasks.length = p.tasks.length := by
  induction h with
  | refl => rfl
  | tail _ hm ih =>
    cases hm with
    | moves hm => exact (length_tasks_moves hm).trans ih
    | waits => exact ih

/-- A step leaves a task as it is, or is a step of that task. -/
theorem task_goes (h : Goes p q) {k : Nat} {t : Task} (hk : p.tasks[k]? = some t) :
    q.tasks[k]? = some t ∨ ∃ s, t.step? p.contexts p.now = some s ∧ q = p.put k t s := by
  cases h with
  | moves hm => exact task_moves hm hk
  | waits => exact Or.inl hk

/-- A task keeps its name, its context and its start. -/
theorem task_passes (h : Passes p q) {k : Nat} {t : Task} (hk : p.tasks[k]? = some t) :
    ∃ g, q.tasks[k]? = some { t with progress := g } := by
  induction h with
  | refl => exact ⟨_, hk⟩
  | tail _ hm ih =>
    obtain ⟨g, hg⟩ := ih
    rcases task_goes hm hg with h | ⟨s, hs, rfl⟩
    · exact ⟨g, h⟩
    · exact ⟨_, getElem?_put hg s⟩

/-- In `m` the task at some place goes on from one stage to another one; `n` comes after this step. -/
structure Advances (k : Nat) (t : Task) (g : Progress) (m : Pool) (g' : Progress) (n : Pool) : Prop where
  task : m.tasks[k]? = some { t with progress := g }
  step : ∃ s, Task.step? { t with progress := g } m.contexts m.now = some s ∧ s.progress = g' ∧
    Passes (m.put k { t with progress := g } s) n

namespace Advances

variable {k : Nat} {t : Task} {g g' : Progress} {m n : Pool}

theorem passes (h : Advances k t g m g' n) : Passes m n := by
  obtain ⟨s, hs, -, hrest⟩ := h.step
  exact .head (.moves (moves_put h.task hs)) hrest

theorem tail (h : Advances k t g m g' n) (hg : Goes n q) : Advances k t g m g' q := by
  obtain ⟨s, hs, hs', hrest⟩ := h.step
  exact ⟨h.task, s, hs, hs', hrest.tail hg⟩

end Advances

/-- What a task keeps at each of its steps, it keeps. -/
theorem keeps_passes {K : Task → Prop} (hstep : ∀ (t : Task) (cs : Contexts) (now : Time)
      (s : Task.Step), K t → t.step? cs now = some s → K { t with progress := s.progress })
    (h : Passes p q) {k : Nat} {t u : Task} (hk : p.tasks[k]? = some t) (ht : K t)
    (hu : q.tasks[k]? = some u) : K u := by
  induction h generalizing u with
  | refl =>
    obtain rfl := Option.some.inj (hk.symm.trans hu)
    exact ht
  | tail hpass hg ih =>
    obtain ⟨g, hg'⟩ := task_passes hpass hk
    rcases task_goes hg hg' with hstay | ⟨s, hs, rfl⟩
    · obtain rfl := Option.some.inj (hstay.symm.trans hu)
      exact ih hg'
    · obtain rfl := Option.some.inj ((getElem?_put hg' s).symm.trans hu)
      exact hstep _ _ _ _ (ih hg') hs

/-- The clock does not go back. -/
theorem now_passes (h : Passes p q) : p.now ≤ q.now := by
  induction h with
  | refl => exact le_rfl
  | tail _ hg ih =>
    rcases goes_cases hg with ⟨_, _, _, -, -, rfl⟩ | ⟨_, _, _, -, -, rfl⟩ | ⟨_, -, hlater, -, rfl⟩
    · exact ih
    · exact ih
    · exact ih.trans hlater

/-- There are no other plans than before. -/
theorem plans_goes (h : Goes p q) : ∀ x ∈ q.plans, x ∈ p.plans := by
  rcases goes_cases h with ⟨before, x, after, hx, -, rfl⟩ | ⟨_, _, _, -, -, rfl⟩ | ⟨_, -, -, -, rfl⟩
  · intro y hy
    rw [hx]
    exact (List.mem_append.1 hy).elim (List.mem_append_left _)
      fun h => List.mem_append_right _ (List.mem_cons_of_mem _ h)
  · exact fun y hy => hy
  · exact fun y hy => hy

/-! ## What is logged on the way -/

end Pool

/-- The events that tell how an evaluation has ended. -/
def Event.OfReadiness (e : Event) : Prop :=
  (∃ n, e = .readinessOk n) ∨ ∃ failed, e = .readinessFailed failed

/-- The events that tell of a single check. -/
def Event.OfCheck (e : Event) : Prop :=
  (∃ check err, e = .lateOk check err) ∨
    ∃ check status elapsed, e = .checkFinished check status elapsed

theorem Event.OfCheck.not_ofReadiness {e : Event} (h : e.OfCheck) : ¬ e.OfReadiness := by
  rcases h with ⟨_, _, rfl⟩ | ⟨_, _, _, rfl⟩ <;> simp [Event.OfReadiness]

theorem ofCheck_judge (o : CheckOutcome) (name : String) (error : Option ContextError)
    (elapsed : Duration) :
    ∀ e ∈ (o.judge name error elapsed).2, e.spans = [] ∧ e.event.OfCheck := by
  unfold CheckOutcome.judge
  split <;> simp [Event.OfCheck]

theorem name_judge (o : CheckOutcome) (name : String) (error : Option ContextError)
    (elapsed : Duration) : (o.judge name error elapsed).1.name = name := by
  unfold CheckOutcome.judge
  split <;> rfl

theorem Task.ofCheck_step? {t : Task} {cs : Contexts} {now : Time} {s : Task.Step}
    (hs : t.step? cs now = some s) : ∀ e ∈ s.entries, e.spans = [] ∧ e.event.OfCheck := by
  rcases Task.step?_reports hs with ⟨o, -, -, -, hentries⟩ | ⟨hnone, -⟩
  · rw [hentries]
    exact ofCheck_judge _ _ _ _
  · simp [hnone]

namespace Pool

variable {p q : Pool}

/-- **The checks log nothing but what concerns a single check**, and this in no span. -/
theorem log_passes (h : Passes p q) :
    ∃ es, q.log = p.log ++ es ∧ ∀ e ∈ es, e.spans = [] ∧ e.event.OfCheck := by
  induction h with
  | refl => exact ⟨[], by simp⟩
  | tail _ hm ih =>
    obtain ⟨es, hes, hall⟩ := ih
    rcases goes_cases hm with ⟨_, _, _, -, -, rfl⟩ | ⟨_, _, s, -, hs, rfl⟩ | ⟨_, -, -, -, rfl⟩
    · exact ⟨es, hes, hall⟩
    · refine ⟨es ++ s.entries, ?_, fun e he => ?_⟩
      · rw [put, hes, List.append_assoc]
      · exact (List.mem_append.1 he).elim (hall e) (Task.ofCheck_step? hs e)
    · exact ⟨es, hes, hall⟩

/-- A task that comes to a result comes to one under its own name. -/
theorem name_passes (h : Passes p q) {k : Nat} {t u : Task} (hk : p.tasks[k]? = some t)
    (hlive : t.hasEnded = false) (hu : q.tasks[k]? = some u) {result : CheckResult}
    {elapsed : Duration} (hr : u.progress = .returned result elapsed) : result.name = t.name := by
  obtain ⟨g, hg⟩ := task_passes h hk
  obtain rfl := Option.some.inj (hu.symm.trans hg)
  refine keeps_passes (K := fun t => ∀ result elapsed, t.progress = .returned result elapsed →
    result.name = t.name) (fun t _ _ s _ hs result elapsed hr => ?_) h hk ?_ hu _ _ hr
  · rcases Task.step?_reports hs with ⟨o, -, -, hprogress, -⟩ | ⟨-, hnone⟩
    · obtain ⟨rfl, -⟩ := Progress.returned.inj (hr.symm.trans hprogress)
      exact name_judge _ _ _ _
    · exact absurd hr (hnone result elapsed)
  · intro result elapsed hr
    rw [Task.hasEnded, hr] at hlive
    cases hlive

/-- What is left for a task to do keeps a property of all that it was to do. -/
theorem always_passes {P : Behaviour → Prop} (h : Passes p q) {k : Nat} {t u : Task}
    (hk : p.tasks[k]? = some t) (ht : t.Always P) (hu : q.tasks[k]? = some u) : u.Always P :=
  keeps_passes (fun _ _ _ _ => Task.always_step) h hk ht hu

/-! ## Runs -/

theorem lt_of_isBeyond {l u : Time} (h : p.isBeyond (some l) u = true) : p.now.wakeUp l < u := by
  have h : (some l).any (fun l => decide (p.now.wakeUp l < u)) = true := h
  rwa [Option.any_some, decide_eq_true_iff] at h

theorem goes_atLimit {l : Time} (hidle : p.step? = none)
    (hle : ∀ x ∈ p.next?, p.now.wakeUp l ≤ x) : Goes p (p.atLimit (some l)) :=
  .waits hidle (Time.le_wakeUp _ _) hle

/-- **Every run is a sequence of steps**, also one that ends with somebody's patience. -/
theorem run_passes (enough : Pool → Bool) (limit : Option Time) (p : Pool) :
    Passes p (p.run enough limit) := by
  induction p using rank.wf.induction with
  | _ p ih =>
    rw [run]
    split
    · exact .refl
    · split
      · rename_i q hq
        exact .head (.moves (moves_of_step? hq).1) (ih q (step?_decreases hq))
      · rename_i hidle
        split
        · rename_i hnext
          cases limit with
          | none => exact .refl
          | some l => exact .single (goes_atLimit hidle (by simp [hnext]))
        · rename_i u hu
          split
          · rename_i hbeyond
            cases limit with
            | none => exact .refl
            | some l =>
              refine .single (goes_atLimit hidle fun x hx => ?_)
              obtain rfl := Option.some.inj (hu.symm.trans hx)
              exact (lt_of_isBeyond hbeyond).le
          · split
            · rename_i q hq
              have hless : rank.rel q p := step?_decreases (p := p.atTime u) hq
              exact .head (.moves (.time hidle hu)) (.head (.moves (moves_of_step? hq).1) (ih q hless))
            · rename_i hnone
              exact absurd hnone (step?_atTime hu)

end Pool
end HealthService
