import HealthService.Proofs.Check.Course
import HealthService.Proofs.Pool.Moves

/-!
# One task among others

A task sees of its pool nothing but the time and what becomes of its own context: whether that is
cancelled, and when the first of the planned cancellations would reach it (`Pool.outlook`).  If no
other task cancels it (`Shielded`), then its fate in the pool is its course by itself (`Leads`).

* `leads_of_turns` — **what a task comes to after a move it comes to before it**; hence
  `leads_of_reaches`, for every sequence of moves.
* `reaches_of_leads` — **and what a task comes to by itself it comes to in the pool**, under some
  order of the moves.
-/

namespace HealthService
namespace Pool

/-! ## The outlook of a context -/

/-- When the first of the planned cancellations that would reach a node is planned for. -/
def planned (p : Pool) (n : Nat) : Option Time :=
  ((p.plans.filter fun x => decide (x.node ∈ p.contexts.lineage n)).map Plan.time).min?

/-- Whether a node is cancelled, and for when that is planned if it is not. -/
def outlook (p : Pool) (n : Nat) : Bool × Option Time :=
  (p.contexts.isCanceled n, ahead (p.planned n) (p.contexts.isCanceled n))

/-- A task by itself comes to `g`, if its context has the outlook that it has in the pool. -/
def Leads (free : Bool) (p : Pool) (t : Task) (g : Progress) : Prop :=
  Course free (p.outlook t.context.node).2 p.now (p.outlook t.context.node).1 t.solo g

variable {free : Bool} {p q : Pool} {k n : Nat} {t : Task} {g : Progress}

theorem exists_plan_of_planned {y : Time} (h : y ∈ p.planned n) :
    ∃ x ∈ p.plans, x.node ∈ p.contexts.lineage n ∧ x.time = y := by
  obtain ⟨x, hx, hy⟩ := List.mem_map.1 (List.min?_mem h)
  obtain ⟨hmem, hnode⟩ := List.mem_filter.1 hx
  exact ⟨x, hmem, of_decide_eq_true hnode, hy⟩

theorem planned_le {x : Plan} (hx : x ∈ p.plans) (hn : x.node ∈ p.contexts.lineage n) :
    ∃ y ∈ p.planned n, y ≤ x.time := by
  have hmem : x.time ∈ (p.plans.filter fun x => decide (x.node ∈ p.contexts.lineage n)).map
      Plan.time := List.mem_map_of_mem (List.mem_filter.2 ⟨hx, decide_eq_true hn⟩)
  cases hy : p.planned n with
  | none =>
    rw [List.min?_eq_none_iff.1 hy] at hmem
    cases hmem
  | some y => exact ⟨y, rfl, (List.min?_eq_some_iff.1 hy).2 _ hmem⟩

/-- A cancellation is due for a context iff it is for a node above it. -/
theorem due_outlook : Due (p.outlook n).2 p.now (p.outlook n).1 ↔
    p.contexts.isCanceled n = false ∧
      ∃ x ∈ p.plans, x.node ∈ p.contexts.lineage n ∧ p.now.hasFired x.time = true := by
  simp only [Due, outlook, ahead_ahead]
  cases p.contexts.isCanceled n with
  | true => simp [ahead]
  | false =>
    simp only [ahead, Bool.false_eq_true, if_false, true_and]
    constructor
    · rintro ⟨y, hy, hfired⟩
      obtain ⟨x, hx, hn, rfl⟩ := exists_plan_of_planned hy
      exact ⟨x, hx, hn, hfired⟩
    · rintro ⟨x, hx, hn, hfired⟩
      obtain ⟨y, hy, hle⟩ := planned_le hx hn
      exact ⟨y, hy, Time.hasFired_of_le hle hfired⟩

/-- What would not reach a node is no part of its outlook. -/
theorem outlook_congr (hline : q.contexts.lineage n = p.contexts.lineage n)
    (hcanceled : q.contexts.isCanceled n = p.contexts.isCanceled n)
    (hplans : p.contexts.isCanceled n = false →
      q.plans.filter (fun x => decide (x.node ∈ p.contexts.lineage n)) =
        p.plans.filter fun x => decide (x.node ∈ p.contexts.lineage n)) :
    q.outlook n = p.outlook n := by
  unfold outlook planned
  rw [hcanceled, hline]
  cases hc : p.contexts.isCanceled n with
  | true => rfl
  | false => rw [hplans hc]

/-! ## A task that the others do not cancel -/

/-- The task at some place is on a context of the pool, and no other task cancels that. -/
structure Shielded (p : Pool) (k : Nat) (t : Task) : Prop where
  wellFormed : p.contexts.WellFormed
  task : p.tasks[k]? = some t
  node_lt : t.context.node < p.contexts.nodes.length
  others : ∀ {j : Nat} {u : Task}, j ≠ k → p.tasks[j]? = some u →
    u.context.node ∈ p.contexts.lineage t.context.node → u.Always Behaviour.KeepsContext

namespace Shielded

/-- A step of another task leaves the context alone. -/
theorem isCanceled_put (h : Shielded p k t) {j : Nat} {u : Task} {s : Task.Step} (hjk : j ≠ k)
    (hj : p.tasks[j]? = some u) (hs : u.step? p.contexts p.now = some s) :
    s.contexts.isCanceled t.context.node = p.contexts.isCanceled t.context.node := by
  rcases Task.step?_contexts hs with hc | ⟨hc, next, hp⟩
  · rw [hc]
  · have hnot : u.context.node ∉ p.contexts.lineage t.context.node := fun hmem =>
      (h.others hjk hj hmem _ hp).root next rfl
    rw [hc, Bool.eq_iff_iff, Contexts.isCanceled_cancelNode h.wellFormed]
    simp [hnot]

/-- **What a move can be to a shielded task**: a step of its own, the cancellation of its context,
the passing of time, or nothing that concerns it. -/
theorem cases (h : Shielded p k t) (hm : Moves p q) :
    (∃ s, t.step? p.contexts p.now = some s ∧ q = p.put k t s) ∨
    (q.now = p.now ∧ q.tasks[k]? = some t ∧ q.contexts.isCanceled t.context.node = true ∧
      Due (p.outlook t.context.node).2 p.now (p.outlook t.context.node).1) ∨
    (q.now = p.now ∧ q.tasks[k]? = some t ∧ q.outlook t.context.node = p.outlook t.context.node) ∨
    ∃ u, p.step? = none ∧ p.next? = some u ∧ q = p.atTime u := by
  have hline := lineage_of_cancels (.single (cancels_moves hm)) t.context.node
  rcases moves_cases hm with ⟨before, x, after, hx, hdue, rfl⟩ | ⟨j, u, s, hj, hs, rfl⟩ | htime
  · right
    have hcancel := Contexts.isCanceled_cancelNode h.wellFormed x.node t.context.node
    by_cases hmem : x.node ∈ p.contexts.lineage t.context.node
    · have hnow : (p.contexts.cancelNode x.node).isCanceled t.context.node = true :=
        hcancel.2 (Or.inr ⟨h.node_lt, hmem⟩)
      cases hc : p.contexts.isCanceled t.context.node with
      | false =>
        exact Or.inl ⟨rfl, h.task, hnow, due_outlook.2 ⟨hc, x, by simp [hx], hmem, hdue⟩⟩
      | true =>
        refine Or.inr (Or.inl ⟨rfl, h.task, outlook_congr hline (hnow.trans hc.symm) fun hn => ?_⟩)
        rw [hc] at hn
        cases hn
    · refine Or.inr (Or.inl ⟨rfl, h.task, outlook_congr hline ?_ fun _ => ?_⟩)
      · rw [Bool.eq_iff_iff]
        exact hcancel.trans (or_iff_left fun hn => hmem hn.2)
      · rw [hx, List.filter_append, List.filter_append, List.filter_cons_of_neg (by simpa using hmem)]
  · by_cases hjk : j = k
    · subst hjk
      obtain rfl := Option.some.inj (hj.symm.trans h.task)
      exact Or.inl ⟨s, hs, rfl⟩
    · refine Or.inr (Or.inr (Or.inl ⟨rfl, ?_, ?_⟩))
      · show (p.tasks.set j _)[k]? = some t
        rw [List.getElem?_set_ne hjk, h.task]
      · exact outlook_congr hline (h.isCanceled_put hjk hj hs) fun _ => rfl
  · exact Or.inr (Or.inr (Or.inr htime))

/-- A shielded task stays shielded. -/
theorem moves (h : Shielded p k t) (hm : Moves p q)
    (hk : q.tasks[k]? = some { t with progress := g }) :
    Shielded q k { t with progress := g } where
  wellFormed := wellFormed_of_cancels (.single (cancels_moves hm)) h.wellFormed
  task := hk
  node_lt := by
    rw [length_of_cancels (.single (cancels_moves hm))]
    exact h.node_lt
  others := by
    intro j u hjk hu hmem
    rw [lineage_of_cancels (.single (cancels_moves hm))] at hmem
    rcases moves_cases hm with ⟨_, _, _, -, -, rfl⟩ | ⟨i, v, s, hi, hs, rfl⟩ | ⟨_, -, -, rfl⟩
    · exact h.others hjk hu hmem
    · by_cases hij : i = j
      · subst hij
        obtain rfl := Option.some.inj (hu.symm.trans (getElem?_put hi s))
        exact Task.always_step (h.others hjk hi hmem) hs
      · have hold : p.tasks[j]? = some u := by rwa [put, List.getElem?_set_ne hij] at hu
        exact h.others hjk hold hmem
    · exact h.others hjk hu hmem

theorem step?_solo (h : Shielded p k t) :
    t.solo.step? (Contexts.lone (p.outlook t.context.node).1) p.now =
      (t.step? p.contexts p.now).map fun s =>
        { s with contexts := Contexts.lone (s.contexts.isCanceled t.context.node) } :=
  Task.step?_solo h.wellFormed h.node_lt

theorem outlook_put (h : Shielded p k t) {s : Task.Step} (hs : t.step? p.contexts p.now = some s) :
    (p.put k t s).outlook t.context.node =
      (s.contexts.isCanceled t.context.node,
        ahead (p.planned t.context.node) (s.contexts.isCanceled t.context.node)) := by
  have hline := lineage_of_cancels (.single (cancels_moves (moves_put h.task hs))) t.context.node
  unfold outlook planned
  rw [hline]
  rfl

/-- Who is not cancelled after a step was not before. -/
theorem isCanceled_before (h : Shielded p k t) {s : Task.Step}
    (hs : t.step? p.contexts p.now = some s) (hc : s.contexts.isCanceled t.context.node = false) :
    p.contexts.isCanceled t.context.node = false := by
  cases hb : p.contexts.isCanceled t.context.node with
  | false => rfl
  | true =>
    have hsolo := h.step?_solo
    rw [hs, Option.map_some, outlook, hb] at hsolo
    exact absurd (hc.symm.trans (Course.isCanceled_of_step? hsolo rfl)) (by simp)

/-- A task that waits in an idle pool waits by itself, and until the pool goes on at least. -/
theorem stop (h : Shielded p k t) (hidle : p.step? = none) {u : Time} (hu : p.next? = some u) :
    t.solo.step? (Contexts.lone (p.outlook t.context.node).1) p.now = none ∧
      ¬ Due (p.outlook t.context.node).2 p.now (p.outlook t.context.node).1 ∧
      ∀ x ∈ t.solo.until? (p.outlook t.context.node).2 p.now (p.outlook t.context.node).1, u ≤ x := by
  obtain ⟨hplans, htasks⟩ := step?_eq_none_iff.1 hidle
  obtain ⟨-, hwake, hplan⟩ := next?_eq_some hu
  have hmem := List.mem_of_getElem? h.task
  refine ⟨?_, fun hdue => ?_, fun x hx => ?_⟩
  · rw [h.step?_solo, htasks t hmem, Option.map_none]
  · obtain ⟨-, y, hy, -, hfired⟩ := due_outlook.1 hdue
    rw [hplans y hy] at hfired
    cases hfired
  · rcases (Contexts.earlier_eq_some hx).1 with hx | hx
    · exact hwake t hmem x hx
    · obtain ⟨y, hy, rfl⟩ := Option.map_eq_some_iff.1 hx
      have hy' : y ∈ p.planned t.context.node := by
        unfold outlook at hy
        rw [ahead_ahead] at hy
        unfold ahead at hy
        split at hy
        · cases hy
        · exact hy
      obtain ⟨z, hz, -, rfl⟩ := exists_plan_of_planned hy'
      exact hplan z hz

/-- In a pool that will never go on no task is waiting for a time. -/
theorem until?_eq_none (h : Shielded p k t) (hnext : p.next? = none) :
    t.solo.until? (p.outlook t.context.node).2 p.now (p.outlook t.context.node).1 = none := by
  obtain ⟨hwake, hplans⟩ := next?_eq_none hnext
  have hahead : (p.outlook t.context.node).2 = none := by simp [outlook, planned, hplans, ahead]
  have hsolo : t.solo.wakeUp? p.now = none := hwake t (List.mem_of_getElem? h.task)
  rw [Task.until?, hahead, ahead, ite_self, Option.map_none, hsolo]
  rfl

end Shielded

/-! ## From the pool to the task -/

theorem course_congr {planned planned' : Option Time} {now : Time} {canceled : Bool}
    (hn : t.context.node = 0) (heq : ahead planned canceled = ahead planned' canceled)
    (h : Course free planned now canceled t g) : Course free planned' now canceled t g := by
  cases canceled with
  | true => exact h.of_canceled hn
  | false =>
    obtain rfl : planned = planned' := heq
    exact h

/-- **What a task comes to after a move it comes to before it.** -/
theorem leads_of_turns (h : Shielded p k t) (hm : Turns free p q) :
    ∃ g', q.tasks[k]? = some { t with progress := g' } ∧
      ∀ g, Leads free q { t with progress := g' } g → Leads free p t g := by
  rcases h.cases hm.1 with
    ⟨s, hs, rfl⟩ | ⟨hnow, hk, hc, hdue⟩ | ⟨hnow, hk, hsame⟩ | ⟨u, hidle, hu, rfl⟩
  · refine ⟨s.progress, getElem?_put h.task s, fun g hg => ?_⟩
    have hsolo := h.step?_solo
    rw [hs, Option.map_some] at hsolo
    refine .own hsolo ?_ ?_
    · -- a task may only take its turn if no cancellation is due, or if the order is free
      cases free with
      | true => exact Or.inl rfl
      | false =>
        refine Or.inr fun hdue => ?_
        obtain ⟨-, x, hx, -, hfired⟩ := due_outlook.1 hdue
        exact hm.2 rfl ⟨x, hx, hfired⟩ rfl
    · rw [Leads, h.outlook_put hs] at hg
      refine course_congr rfl ?_ hg
      show ahead (ahead _ _) _ = ahead (ahead _ _) (s.contexts.isCanceled t.context.node)
      cases hc : s.contexts.isCanceled t.context.node with
      | true => rfl
      | false =>
        rw [h.isCanceled_before hs hc]
        rfl
  · refine ⟨t.progress, hk, fun g hg => ?_⟩
    have hfalse := hdue.canceled_eq
    have hg' : Course free (p.outlook t.context.node).2 p.now true t.solo g := by
      have : (q.outlook t.context.node).1 = true := hc
      rw [Leads, hnow, this] at hg
      exact hg.of_canceled rfl
    have hplan := Course.plan (hfalse ▸ hdue) hg'
    rwa [Leads, hfalse]
  · refine ⟨t.progress, hk, fun g hg => ?_⟩
    rwa [Leads, hnow, hsame] at hg
  · obtain ⟨hblocked, hdue, hle⟩ := h.stop hidle hu
    exact ⟨t.progress, h.task, fun g hg => Course.of_stop hblocked hdue (le_next? hu) hle hg⟩

/-- **What a task comes to later on it comes to from the start.** -/
theorem leads_of_reaches (h : Shielded p k t) (hr : Relation.ReflTransGen (Turns free) p q) :
    ∃ g', Shielded q k { t with progress := g' } ∧
      ∀ g, Leads free q { t with progress := g' } g → Leads free p t g := by
  induction hr with
  | refl => exact ⟨t.progress, h, fun g hg => hg⟩
  | tail _ hm ih =>
    obtain ⟨g', hq, hback⟩ := ih
    obtain ⟨g'', hk, hback'⟩ := leads_of_turns hq hm
    exact ⟨g'', hq.moves hm.1 hk, fun g hg => hback g (hback' g hg)⟩

/-- A task that has ended comes to what it has ended in. -/
theorem leads_of_hasEnded (hend : t.hasEnded = true) : Leads free p t t.progress :=
  Course.ended (t := t.solo) hend

/-- Where nothing happens any more a task comes to what it is. -/
theorem leads_of_stuck (h : Shielded p k t) (hidle : p.step? = none) (hnext : p.next? = none) :
    Leads free p t t.progress := by
  cases hlive : t.hasEnded with
  | true => exact leads_of_hasEnded hlive
  | false =>
    refine Course.forever (t := t.solo) ?_ hlive ?_ (h.until?_eq_none hnext)
    · rw [h.step?_solo, (step?_eq_none_iff.1 hidle).2 t (List.mem_of_getElem? h.task),
        Option.map_none]
    · rw [due_outlook, (next?_eq_none hnext).2]
      simp

/-- **What a task has come to at the end of a run is the end of its course.** -/
theorem leads_of_final (h : Shielded p k t) (hr : Relation.ReflTransGen (Turns free) p q)
    (hfinal : (∀ u, q.tasks[k]? = some u → u.hasEnded = true) ∨ q.step? = none ∧ q.next? = none) :
    ∃ g, q.tasks[k]? = some { t with progress := g } ∧ Leads free p t g := by
  obtain ⟨g, hq, hback⟩ := leads_of_reaches h hr
  refine ⟨g, hq.task, hback g ?_⟩
  rcases hfinal with hend | ⟨hidle, hnext⟩
  · exact leads_of_hasEnded (hend _ hq.task)
  · exact leads_of_stuck hq hidle hnext

/-! ## From the task to the pool -/

/-- While a task waits, the others can be let go on until they wait as well. -/
theorem reaches_idle (h : Shielded p k t)
    (hblocked : t.solo.step? (Contexts.lone (p.outlook t.context.node).1) p.now = none)
    (hdue : ¬ Due (p.outlook t.context.node).2 p.now (p.outlook t.context.node).1) :
    ∃ q, Reaches p q ∧ q.step? = none ∧ q.now = p.now ∧ Shielded q k t ∧
      q.outlook t.context.node = p.outlook t.context.node := by
  induction p using rank.wf.induction with
  | _ p ih =>
    cases hstep : p.step? with
    | none => exact ⟨p, .refl, hstep, rfl, h, rfl⟩
    | some r =>
      have hm := (moves_of_step? hstep).1
      rcases h.cases hm with ⟨s, hs, -⟩ | ⟨-, -, -, hdue'⟩ | ⟨hnow, hk, hsame⟩ | ⟨_, hidle, -⟩
      · rw [h.step?_solo, hs] at hblocked
        cases hblocked
      · exact absurd hdue' hdue
      · obtain ⟨q, hreach, hidle, hq, hshield, hout⟩ := ih r (step?_decreases hstep)
          (h.moves (g := t.progress) hm hk) (by rwa [hsame, hnow]) (by rwa [hsame, hnow])
        exact ⟨q, .head hm hreach, hidle, hq.trans hnow, hshield, hout.trans hsame⟩
      · exact absurd (hidle.symm.trans hstep) (by simp)

/-- While a task waits, the clock can be brought to where its wait ends. -/
theorem reaches_until (h : Shielded p k t) {v : Time}
    (hblocked : t.solo.step? (Contexts.lone (p.outlook t.context.node).1) p.now = none)
    (hdue : ¬ Due (p.outlook t.context.node).2 p.now (p.outlook t.context.node).1)
    (hv : t.solo.until? (p.outlook t.context.node).2 p.now (p.outlook t.context.node).1 = some v) :
    ∃ q, Reaches p q ∧ q.now = v ∧ Shielded q k t ∧
      q.outlook t.context.node = p.outlook t.context.node := by
  -- every stop of the clock on the way brings the end of the wait nearer
  induction hd : v - p.now using Nat.strong_induction_on generalizing p with
  | _ d ih =>
    obtain ⟨q, hreach, hidle, hnow, hq, hout⟩ := reaches_idle h hblocked hdue
    rw [← hout, ← hnow] at hv
    cases hw : q.next? with
    | none => exact absurd (hv.symm.trans (hq.until?_eq_none hw)) (by simp)
    | some w =>
      obtain ⟨hblocked', -, hle⟩ := hq.stop hidle hw
      have hm : Moves q (q.atTime w) := .time hidle hw
      have hshield : Shielded (q.atTime w) k t := hq.moves (g := t.progress) hm hq.task
      rcases (hle v hv).eq_or_lt with rfl | hlt
      · exact ⟨_, hreach.tail hm, rfl, hshield, hout⟩
      · have hlater := le_next? hw
        obtain ⟨hstep, hdue', hsame⟩ := Course.stays hblocked' hlater fun x hx => by
          obtain rfl := Option.some.inj (hv.symm.trans hx)
          exact hlt
        have hpos : p.now < w := by
          rw [← hnow]
          refine lt_of_le_of_ne hlater ?_
          rintro rfl
          exact step?_atTime hw hidle
        have hless : v - w < d := hd ▸ Nat.sub_lt_sub_left (hpos.trans hlt) hpos
        obtain ⟨q', hreach', hv', hshield', hout'⟩ := ih (v - w) hless hshield hstep hdue'
          (hsame.trans hv) rfl
        exact ⟨q', (hreach.tail hm).trans hreach', hv', hshield', hout'.trans hout⟩

/-- **What a task comes to by itself it comes to in the pool**, under some order of the moves. -/
theorem reaches_of_leads (h : Shielded p k t) (hg : Leads true p t g) (hend : ∀ b, g ≠ .running b) :
    ∃ q, Reaches p q ∧ q.tasks[k]? = some { t with progress := g } := by
  suffices hall : ∀ {planned now canceled u}, Course true planned now canceled u g →
      ∀ {p t}, Shielded p k t → p.now = now → t.solo = u →
        p.outlook t.context.node = (canceled, ahead planned canceled) →
        ∃ q, Reaches p q ∧ q.tasks[k]? = some { t with progress := g } by
    refine hall hg h rfl rfl ?_
    simp only [outlook, ahead_ahead]
  clear hg h
  intro planned now canceled u hc
  induction hc with
  | ended hend =>
    rintro p t h - rfl -
    exact ⟨p, .refl, h.task⟩
  | @own now canceled u s g hs _ _ ih =>
    rintro p t h rfl rfl hout
    have hsolo := h.step?_solo
    rw [hout, hs] at hsolo
    obtain ⟨s', hs', rfl⟩ := Option.map_eq_some_iff.1 hsolo.symm
    have hm := moves_put h.task hs'
    obtain ⟨q, hreach, hq⟩ := ih hend (h.moves hm (getElem?_put h.task s')) rfl rfl (by
      rw [h.outlook_put hs']
      refine Prod.ext rfl ?_
      show ahead _ (s'.contexts.isCanceled t.context.node) = ahead _ _
      cases hc : s'.contexts.isCanceled t.context.node with
      | true => rfl
      | false =>
        have hbefore := h.isCanceled_before hs' hc
        have hcanceled : p.contexts.isCanceled t.context.node = canceled := congrArg Prod.fst hout
        have hahead := congrArg Prod.snd hout
        rw [outlook, hbefore] at hahead
        rw [hbefore] at hcanceled
        rw [← hcanceled] at hahead
        exact hahead)
    exact ⟨q, .head hm hreach, hq⟩
  | @plan now u g hdue _ ih =>
    rintro p t h rfl rfl hout
    obtain ⟨-, x, hx, hmem, hfired⟩ := due_outlook.1 (by rw [hout]; exact hdue)
    obtain ⟨before, after, heq⟩ := List.append_of_mem hx
    have hm := Moves.plan heq hfired
    have hnow := Contexts.isCanceled_cancelNode h.wellFormed x.node t.context.node |>.2
      (Or.inr ⟨h.node_lt, hmem⟩)
    obtain ⟨q, hreach, hq⟩ := ih hend (h.moves (g := t.progress) hm h.task) rfl rfl (by
      unfold outlook
      rw [hnow]
      rfl)
    exact ⟨q, .head hm hreach, hq⟩
  | @wait now v canceled u g hblocked hlive hdue hv _ ih =>
    rintro p t h rfl rfl hout
    obtain ⟨q, hreach, hv, hshield, hsame⟩ := reaches_until h (v := v) (by rwa [hout])
      (by rwa [hout, due_ahead]) (by rwa [hout, until?_ahead])
    obtain ⟨q', hreach', hq'⟩ := ih hend hshield hv rfl (hsame.trans hout)
    exact ⟨q', hreach.trans hreach', hq'⟩
  | @forever now canceled u hblocked hlive _ _ =>
    cases hp : u.progress with
    | running b => exact absurd hp (hend b)
    | _ => simp [Task.hasEnded, hp] at hlive

end Pool
end HealthService
