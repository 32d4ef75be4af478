import HealthService.Proofs.Pool.Passing

/-!
# Leaving tasks out

A pool can be looked at as if some of its tasks were not there.  If these have nothing to do with the
contexts of the others (`Pool.Mirrors`), then nobody can tell the difference.

* `Contexts.Agree` — two forests that are the same as far as certain nodes can be seen.
* `Mirrors.passes` — **what the others do among all tasks they may do by themselves**;
* `Mirrors.passes_back` — **and what they do by themselves they may do among all tasks**, at the same
  times: those that were left out cannot hold them up.
* `Mirrors.run` — the run that lets the first task step that can makes the same of them with and
  without the others.
-/

namespace HealthService

/-! ## Forests that agree -/

namespace Contexts

/-- Two forests are the same as far as certain nodes are concerned: these have the same nodes above
them, and the same of them are cancelled. -/
structure Agree (seen : Nat → Prop) (cs ds : Contexts) : Prop where
  left : cs.WellFormed
  right : ds.WellFormed
  lt_left : ∀ {n}, seen n → n < cs.nodes.length
  lt_right : ∀ {n}, seen n → n < ds.nodes.length
  lineage_eq : ∀ {n}, seen n → ds.lineage n = cs.lineage n
  canceled_eq : ∀ {n}, seen n → ds.isCanceled n = cs.isCanceled n

namespace Agree

variable {seen : Nat → Prop} {cs ds : Contexts}

theorem refl (h : cs.WellFormed) (hlt : ∀ n, seen n → n < cs.nodes.length) : Agree seen cs cs :=
  ⟨h, h, hlt _, hlt _, fun _ => rfl, fun _ => rfl⟩

/-- The same node is cancelled in both. -/
theorem cancelNode (h : Agree seen cs ds) (m : Nat) :
    Agree seen (cs.cancelNode m) (ds.cancelNode m) where
  left := wellFormed_cancelNode h.left m
  right := wellFormed_cancelNode h.right m
  lt_left hn := by rw [length_cancelNode]; exact h.lt_left hn
  lt_right hn := by rw [length_cancelNode]; exact h.lt_right hn
  lineage_eq hn := by rw [lineage_cancelNode, lineage_cancelNode, h.lineage_eq hn]
  canceled_eq hn := by
    rw [Bool.eq_iff_iff, isCanceled_cancelNode h.left, isCanceled_cancelNode h.right,
      h.canceled_eq hn, h.lineage_eq hn]
    simp only [h.lt_left hn, h.lt_right hn]

/-- A node is cancelled that nobody sees. -/
theorem cancelNode_left (h : Agree seen cs ds) {m : Nat}
    (hm : ∀ n, seen n → m ∉ cs.lineage n) : Agree seen (cs.cancelNode m) ds where
  left := wellFormed_cancelNode h.left m
  right := h.right
  lt_left hn := by rw [length_cancelNode]; exact h.lt_left hn
  lt_right := h.lt_right
  lineage_eq hn := by rw [lineage_cancelNode, h.lineage_eq hn]
  canceled_eq hn := by
    rw [Bool.eq_iff_iff, isCanceled_cancelNode h.left, h.canceled_eq hn]
    simp [hm _ hn]

end Agree
end Contexts

/-! ## Steps in forests that agree -/

namespace Task

variable {t : Task} {cs ds : Contexts} {now : Time} {s : Step}

/-- The contexts after the next step of a task, which may cancel its own. -/
def leave (t : Task) (cs : Contexts) : Contexts :=
  match t.progress with
  | .running (.cancel _) => cs.cancelNode t.context.node
  | _ => cs

theorem leave_cases (t : Task) : (∀ cs, t.leave cs = cs) ∨
    ∀ cs : Contexts, t.leave cs = cs.cancelNode t.context.node := by
  unfold leave
  split
  · exact Or.inr fun _ => rfl
  · exact Or.inl fun _ => rfl

/-- **A step depends on nothing in the forest but on whether the task's own context is cancelled.** -/
theorem step?_congr (h : ds.isCanceled t.context.node = cs.isCanceled t.context.node) :
    t.step? ds now = (t.step? cs now).map fun s => { s with contexts := t.leave ds } := by
  have herror : ds.error? t.context now = cs.error? t.context now := by
    rw [Contexts.error?, Contexts.error?, h]
  have hawaited : ds.awaited? t.context now = cs.awaited? t.context now := by
    rw [Contexts.awaited?, Contexts.awaited?, h]
  unfold step? leave
  cases t.progress with
  | returned r e => rfl
  | panicked payload => rfl
  | running b =>
    cases b with
    | finish o =>
      dsimp only
      rw [herror]
      rfl
    | look next =>
      dsimp only
      rw [view, herror]
      rfl
    | sleepUntil d next =>
      dsimp only
      split <;> rfl
    | race d w onDue onEnd =>
      dsimp only
      rw [hawaited, Option.map_map]
      rfl
    | _ => rfl

theorem contexts_of_step? (hs : t.step? cs now = some s) : s.contexts = t.leave cs := by
  have hsame : t.step? cs now = (t.step? cs now).map fun s => { s with contexts := t.leave cs } :=
    step?_congr rfl
  rw [hs, Option.map_some] at hsame
  exact congrArg Step.contexts (Option.some.inj hsame)

end Task

/-! ## Pools without some of their tasks -/

namespace Pool

/-- `part` is what is left of `whole` when only the tasks from place `m` on are kept, as many as
`part` has.  Nothing that is left out has to do with the nodes that the others see. -/
structure Mirrors (seen : Nat → Prop) (m : Nat) (whole part : Pool) : Prop where
  now_eq : part.now = whole.now
  plans_eq : part.plans = whole.plans
  agree : Contexts.Agree seen whole.contexts part.contexts
  window : part.tasks = (whole.tasks.drop m).take part.tasks.length
  inside : ∀ t ∈ part.tasks, seen t.context.node
  outside : ∀ {k : Nat} {t : Task}, whole.tasks[k]? = some t → (k < m ∨ m + part.tasks.length ≤ k) →
    ∀ n, seen n → t.context.node ∉ whole.contexts.lineage n

namespace Mirrors

variable {seen : Nat → Prop} {m k : Nat} {whole part w' p' : Pool} {t : Task} {s : Task.Step}

theorem getElem?_eq (h : Mirrors seen m whole part) (hk : k < part.tasks.length) :
    part.tasks[k]? = whole.tasks[m + k]? := by
  rw [h.window, List.getElem?_take_of_lt hk, List.getElem?_drop]

theorem task_of_part (h : Mirrors seen m whole part) (hk : part.tasks[k]? = some t) :
    whole.tasks[m + k]? = some t := by
  rw [← h.getElem?_eq (List.getElem?_eq_some_iff.1 hk).1, hk]

/-- A task of the whole pool is left out, or there is one like it. -/
theorem task_of_whole (h : Mirrors seen m whole part) (hk : whole.tasks[k]? = some t) :
    (k < m ∨ m + part.tasks.length ≤ k) ∨ ∃ i, k = m + i ∧ part.tasks[i]? = some t := by
  by_cases hin : m ≤ k ∧ k < m + part.tasks.length
  · refine Or.inr ⟨k - m, by omega, ?_⟩
    rw [h.getElem?_eq (by omega), Nat.add_sub_cancel' hin.1, hk]
  · exact Or.inl (by omega)

/-- The tasks that are kept take the same steps. -/
theorem step?_eq (h : Mirrors seen m whole part) (hk : part.tasks[k]? = some t) :
    t.step? part.contexts part.now = (t.step? whole.contexts whole.now).map fun s =>
      { s with contexts := t.leave part.contexts } := by
  rw [h.now_eq]
  exact Task.step?_congr (h.agree.canceled_eq (h.inside t (List.mem_of_getElem? hk)))

/-! ### Steps of both -/

/-- A planned cancellation in both pools. -/
theorem plan (h : Mirrors seen m whole part) (n : Nat) (xs : List Plan) :
    Mirrors seen m { whole with contexts := whole.contexts.cancelNode n, plans := xs }
      { part with contexts := part.contexts.cancelNode n, plans := xs } where
  now_eq := h.now_eq
  plans_eq := rfl
  agree := h.agree.cancelNode n
  window := h.window
  inside := h.inside
  outside hk hout n hn := by
    rw [Contexts.lineage_cancelNode]
    exact h.outside hk hout n hn

theorem atTime (h : Mirrors seen m whole part) (u : Time) :
    Mirrors seen m (whole.atTime u) (part.atTime u) where
  now_eq := rfl
  plans_eq := h.plans_eq
  agree := h.agree
  window := h.window
  inside := h.inside
  outside := h.outside

/-- A step of a task that is kept. -/
theorem own (h : Mirrors seen m whole part) (hk : part.tasks[k]? = some t)
    (hs : t.step? whole.contexts whole.now = some s) :
    Mirrors seen m (whole.put (m + k) t s)
      (part.put k t { s with contexts := t.leave part.contexts }) where
  now_eq := h.now_eq
  plans_eq := h.plans_eq
  agree := by
    show Contexts.Agree seen s.contexts (t.leave part.contexts)
    rw [Task.contexts_of_step? hs]
    rcases t.leave_cases with hleave | hleave <;> rw [hleave, hleave]
    · exact h.agree
    · exact h.agree.cancelNode _
  window := by
    show part.tasks.set k _ = ((whole.tasks.set (m + k) _).drop m).take (part.tasks.set k _).length
    rw [List.length_set, List.drop_set, if_neg (by omega), Nat.add_sub_cancel_left, List.take_set,
      ← h.window]
  inside := by
    intro u hu
    rcases List.mem_or_eq_of_mem_set hu with hu | rfl
    · exact h.inside u hu
    · exact h.inside t (List.mem_of_getElem? hk)
  outside := by
    intro j u hu hout n hn
    have hlt := (List.getElem?_eq_some_iff.1 hk).1
    change (whole.tasks.set (m + k) _)[j]? = some u at hu
    rw [put, List.length_set] at hout
    rw [List.getElem?_set_ne (by omega)] at hu
    have hline := lineage_of_cancels (.single (cancels_moves (moves_put (h.task_of_part hk) hs))) n
    rw [hline]
    exact h.outside hu hout n hn

/-- A step of a task that is left out. -/
theorem other (h : Mirrors seen m whole part) (hk : whole.tasks[k]? = some t)
    (hout : k < m ∨ m + part.tasks.length ≤ k)
    (hs : t.step? whole.contexts whole.now = some s) : Mirrors seen m (whole.put k t s) part where
  now_eq := h.now_eq
  plans_eq := h.plans_eq
  agree := by
    show Contexts.Agree seen s.contexts part.contexts
    rw [Task.contexts_of_step? hs]
    rcases t.leave_cases with hleave | hleave <;> rw [hleave]
    · exact h.agree
    · exact h.agree.cancelNode_left (h.outside hk hout)
  window := by
    show part.tasks = ((whole.tasks.set k _).drop m).take part.tasks.length
    rcases hout with hlt | hle
    · rw [List.drop_set, if_pos hlt, ← h.window]
    · rw [List.drop_set, if_neg (by omega), List.take_set, List.set_eq_of_length_le, ← h.window]
      rw [List.length_take]
      omega
  inside := h.inside
  outside := by
    intro j u hu hout' n hn
    have hline := lineage_of_cancels (.single (cancels_moves (moves_put hk hs))) n
    rw [hline]
    by_cases hjk : k = j
    · subst hjk
      obtain rfl := Option.some.inj (hu.symm.trans (getElem?_put hk s))
      exact h.outside hk hout n hn
    · rw [put, List.getElem?_set_ne hjk] at hu
      exact h.outside hu hout' n hn

/-! ### The passing of time -/

/-- If nothing happens among all tasks, nothing happens among those that are kept. -/
theorem idle (h : Mirrors seen m whole part) (hidle : whole.step? = none) : part.step? = none := by
  obtain ⟨hplans, htasks⟩ := step?_eq_none_iff.1 hidle
  rw [step?_eq_none_iff, h.plans_eq]
  refine ⟨by rwa [h.now_eq], fun t ht => ?_⟩
  obtain ⟨k, hk⟩ := List.getElem?_of_mem ht
  rw [h.step?_eq hk, htasks t (List.mem_of_getElem? (h.task_of_part hk)), Option.map_none]

/-- What is early for all tasks is early for those that are kept. -/
theorem early (h : Mirrors seen m whole part) {u : Time} (hu : ∀ x ∈ whole.next?, u ≤ x) :
    ∀ x ∈ part.next?, u ≤ x := by
  obtain ⟨htasks, hplans⟩ := early_iff.1 hu
  rw [early_iff, h.plans_eq, h.now_eq]
  refine ⟨fun t ht => ?_, hplans⟩
  obtain ⟨k, hk⟩ := List.getElem?_of_mem ht
  exact htasks t (List.mem_of_getElem? (h.task_of_part hk))

/-- While those that are kept wait, only the others take steps. -/
theorem step_idle (h : Mirrors seen m whole part) (hidle : part.step? = none)
    (hstep : whole.step? = some w') : Mirrors seen m w' part := by
  obtain ⟨hplans, htasks⟩ := step?_eq_none_iff.1 hidle
  rcases moves_cases (moves_of_step? hstep).1 with
    ⟨before, x, after, hx, hdue, -⟩ | ⟨k, t, s, hk, hs, rfl⟩ | ⟨_, hidle', -⟩
  · rw [← h.now_eq, hplans x (by simp [h.plans_eq, hx])] at hdue
    cases hdue
  · rcases h.task_of_whole hk with hout | ⟨i, rfl, hi⟩
    · exact h.other hk hout hs
    · have hblocked := htasks t (List.mem_of_getElem? hi)
      rw [h.step?_eq hi, hs] at hblocked
      cases hblocked
  · rw [hidle'] at hstep
    cases hstep

/-- **While those that are kept wait, the clock can be brought to wherever they may look at it.** -/
theorem catch_up (h : Mirrors seen m whole part) (hidle : part.step? = none) {u : Time}
    (hl : part.now ≤ u) (hu : ∀ x ∈ part.next?, u ≤ x) :
    ∃ w', Passes whole w' ∧ Mirrors seen m w' (part.atTime u) := by
  induction whole using rank.wf.induction generalizing part with
  | _ whole ih =>
    cases hstep : whole.step? with
    | some q =>
      obtain ⟨w', hpass, hw⟩ := ih q (step?_decreases hstep) (h.step_idle hidle hstep) hidle hl hu
      exact ⟨w', .head (.moves (moves_of_step? hstep).1) hpass, hw⟩
    | none =>
      by_cases hearly : ∀ x ∈ whole.next?, u ≤ x
      · refine ⟨_, .single (.waits hstep ?_ hearly), h.atTime u⟩
        rwa [← h.now_eq]
      · -- somebody else wakes up before: the clock stops there, and goes on once all wait again
        push Not at hearly
        obtain ⟨v, hv, hvu⟩ := hearly
        have hlater := le_next? hv
        rw [← h.now_eq] at hlater
        obtain ⟨hidle', hnext⟩ := stays_idle hidle hlater fun x hx => hvu.trans_le (hu x hx)
        cases hstep' : (whole.atTime v).step? with
        | none => exact absurd hstep' (step?_atTime hv)
        | some q =>
          have hless : rank.rel q whole := step?_decreases (p := whole.atTime v) hstep'
          obtain ⟨w', hpass, hw⟩ := ih q hless ((h.atTime v).step_idle hidle' hstep') hidle'
            (hvu.le) (by rwa [hnext])
          exact ⟨w', .head (.moves (.time hstep hv))
            (.head (.moves (moves_of_step? hstep').1) hpass), hw⟩

/-! ### From one pool to the other -/

/-- A step among all tasks is one of those that are kept, or nothing to them. -/
theorem goes (h : Mirrors seen m whole part) (hg : Goes whole w') :
    ∃ p', Passes part p' ∧ Mirrors seen m w' p' := by
  rcases goes_cases hg with
    ⟨before, x, after, hx, hdue, rfl⟩ | ⟨k, t, s, hk, hs, rfl⟩ | ⟨u, hidle, hl, hu, rfl⟩
  · refine ⟨_, .single (.moves (.plan (h.plans_eq.trans hx) ?_)), h.plan x.node (before ++ after)⟩
    rwa [h.now_eq]
  · rcases h.task_of_whole hk with hout | ⟨i, rfl, hi⟩
    · exact ⟨part, .refl, h.other hk hout hs⟩
    · refine ⟨_, .single (.moves (moves_put hi ?_)), h.own hi hs⟩
      rw [h.step?_eq hi, hs, Option.map_some]
  · refine ⟨_, .single (.waits (h.idle hidle) ?_ (h.early hu)), h.atTime u⟩
    rwa [h.now_eq]

/-- A step of those that are kept can be taken among all tasks, if need be after steps of others. -/
theorem goes_back (h : Mirrors seen m whole part) (hg : Goes part p') :
    ∃ w', Passes whole w' ∧ Mirrors seen m w' p' := by
  rcases goes_cases hg with
    ⟨before, x, after, hx, hdue, rfl⟩ | ⟨k, t, s, hk, hs, rfl⟩ | ⟨u, hidle, hl, hu, rfl⟩
  · refine ⟨_, .single (.moves (.plan (h.plans_eq.symm.trans hx) ?_)),
      h.plan x.node (before ++ after)⟩
    rwa [← h.now_eq]
  · rw [h.step?_eq hk] at hs
    obtain ⟨s', hs', rfl⟩ := Option.map_eq_some_iff.1 hs
    exact ⟨_, .single (.moves (moves_put (h.task_of_part hk) hs')), h.own hk hs'⟩
  · exact h.catch_up hidle hl hu

/-- **What the others do among all tasks they may do by themselves.** -/
theorem passes (h : Mirrors seen m whole part) (hp : Passes whole w') :
    ∃ p', Passes part p' ∧ Mirrors seen m w' p' := by
  induction hp with
  | refl => exact ⟨part, .refl, h⟩
  | tail _ hg ih =>
    obtain ⟨q, hq, hmirror⟩ := ih
    obtain ⟨p', hp', h'⟩ := hmirror.goes hg
    exact ⟨p', hq.trans hp', h'⟩

/-- **What they do by themselves they may do among all tasks.** -/
theorem passes_back (h : Mirrors seen m whole part) (hp : Passes part p') :
    ∃ w', Passes whole w' ∧ Mirrors seen m w' p' := by
  induction hp with
  | refl => exact ⟨whole, .refl, h⟩
  | tail _ hg ih =>
    obtain ⟨q, hq, hmirror⟩ := ih
    obtain ⟨w', hw', h'⟩ := hmirror.goes_back hg
    exact ⟨w', hq.trans hw', h'⟩

end Mirrors

/-! ## The order of a run -/

section Order

variable {p q : Pool} {enough : Pool → Bool}

/-- The task that takes the next step is known by its place. -/
theorem stepFirst?_eq_put (h : p.stepFirst? [] p.tasks = some q) :
    ∃ k t s, p.tasks[k]? = some t ∧ t.step? p.contexts p.now = some s ∧ q = p.put k t s ∧
      ∀ j < k, ∀ u, p.tasks[j]? = some u → u.step? p.contexts p.now = none := by
  obtain ⟨init, t, after, s, hsplit, hs, rfl, hfirst⟩ := stepFirst?_eq_some h
  have hsplit : p.tasks = init ++ t :: after := hsplit
  refine ⟨init.length, t, s, by simp [hsplit], hs, withStep_eq_put hsplit s, fun j hj u hu => ?_⟩
  rw [hsplit, List.getElem?_append_left hj] at hu
  exact hfirst (by simp) u (List.mem_of_getElem? hu)

/-- Of the tasks that can take a step it is the first that does. -/
theorem stepFirst?_eq_some_iff : p.stepFirst? [] p.tasks = some q ↔
    ∃ k t s, p.tasks[k]? = some t ∧ t.step? p.contexts p.now = some s ∧ q = p.put k t s ∧
      ∀ j < k, ∀ u, p.tasks[j]? = some u → u.step? p.contexts p.now = none := by
  constructor
  · exact stepFirst?_eq_put
  · rintro ⟨k, t, s, hk, hs, rfl, hfirst⟩
    cases hstep : p.stepFirst? [] p.tasks with
    | none =>
      rw [stepFirst?_eq_none hstep t (List.mem_of_getElem? hk)] at hs
      cases hs
    | some r =>
      obtain ⟨k', t', s', hk', hs', rfl, hfirst'⟩ := stepFirst?_eq_put hstep
      rcases Nat.lt_trichotomy k k' with hlt | rfl | hgt
      · rw [hfirst' k hlt t hk] at hs
        cases hs
      · obtain rfl := Option.some.inj (hk.symm.trans hk')
        obtain rfl := Option.some.inj (hs.symm.trans hs')
        rfl
      · rw [hfirst k' hgt t' hk'] at hs'
        cases hs'

theorem run_of_stuck (h : enough p = false) (hidle : p.step? = none) (hnext : p.next? = none) :
    p.run enough none = p := run_of_limit h hidle (by simp [hnext])

variable (enough) in
/-- A stop before anything happens makes no difference to what a run comes to, if that is not just to
stop there. -/
theorem run_atTime_cases {u : Time} (h : enough p = false) (hu : enough (p.atTime u) = false)
    (hidle : p.step? = none) (hl : p.now ≤ u) (hle : ∀ x ∈ p.next?, u ≤ x) :
    (p.atTime u).run enough none = p.run enough none ∨
      (p.atTime u).run enough none = p.atTime u ∧ p.run enough none = p := by
  cases hnext : p.next? with
  | none =>
    obtain ⟨hidle', hnext'⟩ := stays_idle hidle hl (by simp [hnext])
    exact Or.inr ⟨run_of_stuck hu hidle' (hnext'.trans hnext), run_of_stuck h hidle hnext⟩
  | some v =>
    left
    cases hq : (p.atTime v).step? with
    | none => exact absurd hq (step?_atTime hnext)
    | some q =>
      rw [run_of_time h hidle hnext rfl hq]
      rcases (hle v hnext).eq_or_lt with rfl | hlt
      · rw [run_of_step hu hq]
      · obtain ⟨hidle', hnext'⟩ := stays_idle hidle hl fun x hx => by
          obtain rfl := Option.some.inj (hnext.symm.trans hx)
          exact hlt
        rw [run_of_time hu hidle' (hnext'.trans hnext) rfl hq]

end Order

namespace Mirrors

variable {seen : Nat → Prop} {m : Nat} {whole part w' : Pool}

theorem cancelFirst? (h : Mirrors seen m whole part) {before xs : List Plan}
    (hw : whole.cancelFirst? before xs = some w') :
    ∃ p', part.cancelFirst? before xs = some p' ∧ Mirrors seen m w' p' := by
  induction xs generalizing before with
  | nil => cases hw
  | cons x after ih =>
    rw [Pool.cancelFirst?] at hw ⊢
    split at hw
    · rename_i hdue
      obtain rfl := Option.some.inj hw
      rw [← h.now_eq] at hdue
      exact ⟨_, if_pos hdue, h.plan x.node (before ++ after)⟩
    · rename_i hdue
      rw [← h.now_eq] at hdue
      rw [if_neg hdue]
      exact ih hw

theorem cancelFirst?_none (h : Mirrors seen m whole part) {before xs : List Plan}
    (hw : whole.cancelFirst? before xs = none) : part.cancelFirst? before xs = none := by
  induction xs generalizing before with
  | nil => rfl
  | cons x after ih =>
    rw [Pool.cancelFirst?, ← h.now_eq] at hw
    rw [Pool.cancelFirst?]
    split at hw
    · cases hw
    · rename_i hdue
      rw [if_neg hdue]
      exact ih hw

/-- What happens next among all tasks happens next among those that are kept, or is nothing to
them. -/
theorem step?_cases (h : Mirrors seen m whole part) (hw : whole.step? = some w') :
    Mirrors seen m w' part ∨ ∃ p', part.step? = some p' ∧ Mirrors seen m w' p' := by
  unfold Pool.step? at hw
  split at hw
  · rename_i q hq
    obtain rfl := Option.some.inj hw
    obtain ⟨p', hp', hmirror⟩ := h.cancelFirst? hq
    refine Or.inr ⟨p', ?_, hmirror⟩
    rw [Pool.step?, h.plans_eq, hp']
  · rename_i hnone
    obtain ⟨k, t, s, hk, hs, rfl, hfirst⟩ := stepFirst?_eq_some_iff.1 hw
    rcases h.task_of_whole hk with hout | ⟨i, rfl, hi⟩
    · exact Or.inl (h.other hk hout hs)
    · refine Or.inr ⟨_, ?_, h.own hi hs⟩
      rw [Pool.step?, h.plans_eq, h.cancelFirst?_none hnone]
      refine stepFirst?_eq_some_iff.2 ⟨i, t, _, hi, ?_, rfl, fun j hj u hu => ?_⟩
      · rw [h.step?_eq hi, hs, Option.map_some]
      · rw [h.step?_eq hu, hfirst (m + j) (by omega) u (h.task_of_part hu), Option.map_none]

/-- Runs of two pools until those that are kept have ended make the same of them. -/
def RunsAlike (m : Nat) (whole part : Pool) : Prop :=
  ((whole.run (·.hasEndedFrom m) none).tasks.drop m).all Task.hasEnded =
      (part.run (·.hasEndedFrom 0) none).tasks.all Task.hasEnded ∧
    ((part.run (·.hasEndedFrom 0) none).tasks.all Task.hasEnded = true →
      (whole.run (·.hasEndedFrom m) none).tasks.drop m =
          (part.run (·.hasEndedFrom 0) none).tasks ∧
        (whole.run (·.hasEndedFrom m) none).now = (part.run (·.hasEndedFrom 0) none).now)

/-- If there are no tasks behind those that are kept, they are all that is behind the others. -/
theorem drop_eq (h : Mirrors seen m whole part) (hlen : whole.tasks.length = m + part.tasks.length) :
    whole.tasks.drop m = part.tasks := by
  rw [h.window, List.take_of_length_le]
  rw [List.length_drop, hlen]
  omega

/-- Runs that are over make the same of the tasks. -/
theorem runsAlike_of_over (h : Mirrors seen m whole part)
    (hlen : whole.tasks.length = m + part.tasks.length)
    (hwhole : whole.run (·.hasEndedFrom m) none = whole)
    (hpart : part.run (·.hasEndedFrom 0) none = part) : RunsAlike m whole part := by
  rw [RunsAlike, hwhole, hpart, h.drop_eq hlen]
  exact ⟨rfl, fun _ => ⟨rfl, h.now_eq.symm⟩⟩

/-- What comes next among all tasks makes no difference if it makes none from then on. -/
theorem runsAlike_of_step (h : Mirrors seen m whole part)
    (hlen : whole.tasks.length = m + part.tasks.length) (hend : part.hasEndedFrom 0 = false)
    (hstep : whole.step? = some w') (hnext : ∀ {p'}, Mirrors seen m w' p' →
      w'.tasks.length = m + p'.tasks.length → RunsAlike m w' p') : RunsAlike m w' part := by
  have hw := length_tasks_moves (moves_of_step? hstep).1
  rcases h.step?_cases hstep with hmirror | ⟨p', hp', hmirror⟩
  · exact hnext hmirror (hw.trans hlen)
  · have hp := length_tasks_moves (moves_of_step? hp').1
    rw [RunsAlike, run_of_step hend hp']
    exact hnext hmirror (by rw [hw, hp, hlen])

/-- **A run until those that are kept have ended makes the same of them**, with the others or
without. -/
theorem run (h : Mirrors seen m whole part) (hlen : whole.tasks.length = m + part.tasks.length) :
    RunsAlike m whole part := by
  induction whole using rank.wf.induction generalizing part with
  | _ whole ih =>
    have hsame : whole.hasEndedFrom m = part.hasEndedFrom 0 := by
      rw [hasEndedFrom, hasEndedFrom, h.drop_eq hlen, List.drop_zero]
    cases hend : part.hasEndedFrom 0 with
    | true => exact h.runsAlike_of_over hlen (run_of_enough (hsame.trans hend)) (run_of_enough hend)
    | false =>
      have hwhole : whole.hasEndedFrom m = false := hsame.trans hend
      cases hstep : whole.step? with
      | some q =>
        rw [RunsAlike, run_of_step hwhole hstep]
        exact h.runsAlike_of_step hlen hend hstep (ih q (step?_decreases hstep))
      | none =>
        have hidle := h.idle hstep
        cases hnext : whole.next? with
        | none =>
          have hnext' : part.next? = none := by
            refine Option.eq_none_iff_forall_not_mem.2 fun x hx => ?_
            exact Nat.not_succ_le_self x (h.early (by simp [hnext]) x hx)
          exact h.runsAlike_of_over hlen (run_of_stuck hwhole hstep hnext)
            (run_of_stuck hend hidle hnext')
        | some v =>
          cases hq : (whole.atTime v).step? with
          | none => exact absurd hq (step?_atTime hnext)
          | some q =>
            have hless : rank.rel q whole := step?_decreases (p := whole.atTime v) hq
            have hlater : part.now ≤ v := h.now_eq ▸ le_next? hnext
            have hcommon : RunsAlike m whole (part.atTime v) := by
              rw [RunsAlike, run_of_time hwhole hstep hnext rfl hq]
              exact (h.atTime v).runsAlike_of_step hlen hend hq (ih q hless)
            -- the other pool may stop at this time as well
            have hend' : (part.atTime v).hasEndedFrom 0 = false := hend
            rcases run_atTime_cases (·.hasEndedFrom 0) hend hend' hidle hlater
              (h.early fun x hx => (Option.some.inj (hnext.symm.trans hx)).le) with
              hsame | ⟨hstop, hstuck⟩
            · rwa [RunsAlike, hsame] at hcommon
            · rw [RunsAlike, hstop] at hcommon
              rw [RunsAlike, hstuck]
              have hopen : part.tasks.all Task.hasEnded = false := by
                rwa [hasEndedFrom, List.drop_zero] at hend
              exact ⟨hcommon.1, fun hall => absurd hall (by simp [hopen])⟩

end Mirrors
end Pool
end HealthService
