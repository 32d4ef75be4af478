import HealthService.Proofs.Readiness.Accounting
import HealthService.Proofs.Readiness.Outcome

/-!
# Evaluations that panic

Checks may panic at any time while others still run.  The evaluation waits for all of them, and goes
through them in the order of the checkers; so whose panic it ends in is settled by their places in the
list, and not by the order in which they panicked.

* `collect_eq_some_iff` — **the payload is that of the first check in the list that panicked.**
* `elapsed_le_now` — an evaluation is not over before its checks.
* `canceled_of_passes` — nobody but the callers cancels their contexts.
* `panicked_of_ends` — what an evaluation that ends in a panic leaves behind.
* `panics_by_place` — **how every evaluation ends of which some check panics**, for all checkers, callers
  and orders of events.
-/

namespace HealthService

open Pool

/-! ## The first panic of a list -/

/-- The check at a place has panicked, with this payload, and none before it has. -/
structure FirstPanic (ts : List Task) (i : Nat) (payload : Payload) : Prop where
  panicked : ts[i]?.map Task.progress = some (.panicked payload)
  calm : ∀ j < i, ∀ t, ts[j]? = some t → t.progress.isPanic = false

namespace FirstPanic

variable {t : Task} {ts : List Task} {i : Nat} {payload : Payload}

theorem head (h : t.progress = .panicked payload) : FirstPanic (t :: ts) 0 payload :=
  ⟨congrArg some h, fun j hj => absurd hj (Nat.not_lt_zero j)⟩

theorem cons_iff (h : t.progress.isPanic = false) :
    FirstPanic (t :: ts) (i + 1) payload ↔ FirstPanic ts i payload := by
  constructor
  · rintro ⟨hpanic, hcalm⟩
    exact ⟨hpanic, fun j hj u hu => hcalm (j + 1) (Nat.succ_lt_succ hj) u hu⟩
  · rintro ⟨hpanic, hcalm⟩
    refine ⟨hpanic, fun j hj u hu => ?_⟩
    cases j with
    | zero =>
      obtain rfl := Option.some.inj hu
      exact h
    | succ j => exact hcalm j (Nat.lt_of_succ_lt_succ hj) u hu

/-- If some check has panicked, one of them is the first. -/
theorem exists_of_any (h : (ts.any fun t => t.progress.isPanic) = true) :
    ∃ i payload, FirstPanic ts i payload := by
  induction ts with
  | nil => cases h
  | cons t ts ih =>
    by_cases ht : t.progress.isPanic = true
    · cases hp : t.progress with
      | panicked payload => exact ⟨0, payload, head hp⟩
      | running b => simp [hp, Progress.isPanic] at ht
      | returned result elapsed => simp [hp, Progress.isPanic] at ht
    · rw [Bool.not_eq_true] at ht
      rw [List.any_cons, ht, Bool.false_or] at h
      obtain ⟨i, payload, hfirst⟩ := ih h
      exact ⟨i + 1, payload, (cons_iff ht).2 hfirst⟩

end FirstPanic

namespace Readiness

/-- **The payload is that of the first check in the list that panicked.** -/
theorem collect_eq_some_iff {ts : List Task} (hend : ∀ t ∈ ts, t.hasEnded = true)
    {payload : Payload} : (collect ts).2 = some payload ↔ ∃ i, FirstPanic ts i payload := by
  induction ts with
  | nil =>
    refine ⟨fun h => (by cases h), ?_⟩
    rintro ⟨i, hpanic, -⟩
    simp at hpanic
  | cons t ts ih =>
    obtain ⟨ht, hts⟩ := List.forall_mem_cons.1 hend
    rw [collect]
    cases hp : t.progress with
    | running b =>
      rw [Task.hasEnded, hp] at ht
      cases ht
    | panicked payload' =>
      constructor
      · intro h
        obtain rfl := Option.some.inj h
        exact ⟨0, FirstPanic.head hp⟩
      · rintro ⟨i, hpanic, hcalm⟩
        cases i with
        | zero =>
          have hpanic : t.progress = .panicked payload := Option.some.inj hpanic
          rw [hp] at hpanic
          exact congrArg some (Progress.panicked.inj hpanic)
        | succ i =>
          have hcalm := hcalm 0 (Nat.succ_pos i) t rfl
          rw [hp] at hcalm
          cases hcalm
    | returned result elapsed =>
      have hcalm : t.progress.isPanic = false := by rw [hp]; rfl
      refine (ih hts).trans ⟨?_, ?_⟩
      · rintro ⟨i, hfirst⟩
        exact ⟨i + 1, (FirstPanic.cons_iff hcalm).2 hfirst⟩
      · rintro ⟨i, hfirst⟩
        cases i with
        | zero =>
          have hpanic : t.progress = .panicked payload := Option.some.inj hfirst.panicked
          rw [hp] at hpanic
          cases hpanic
        | succ i => exact ⟨i, (FirstPanic.cons_iff hcalm).1 hfirst⟩

end Readiness

/-! ## Checks that panic and checks that do not -/

namespace Behaviour

/-- A node at which a check does not come to a result, and panics with no other payload. -/
def PanicsWith (payload : Payload) (b : Behaviour) : Prop :=
  (∀ outcome, b ≠ .finish outcome) ∧ ∀ payload', b = .panic payload' → payload' = payload

end Behaviour

namespace Pool

variable {p q : Pool} {k : Nat} {t u : Task}

/-- A check that cannot but panic has panicked when it has ended. -/
theorem panicked_passes {payload : Payload} (hq : Passes p q) (hk : p.tasks[k]? = some t)
    (ht : t.Always (Behaviour.PanicsWith payload)) (hlive : t.hasEnded = false)
    (hu : q.tasks[k]? = some u) (hend : u.hasEnded = true) : u.progress = .panicked payload := by
  refine (keeps_passes (K := fun t => t.Always (Behaviour.PanicsWith payload) ∧
    (t.hasEnded = true → t.progress = .panicked payload)) ?_ hq hk ⟨ht, ?_⟩ hu).2 hend
  · rintro t cs now s ⟨ht, -⟩ hs
    refine ⟨Task.always_step ht hs, fun hend => ?_⟩
    have hend : Task.hasEnded { t with progress := s.progress } = true := hend
    cases hp : s.progress with
    | running b =>
      rw [Task.hasEnded, hp] at hend
      cases hend
    | returned result elapsed =>
      rcases Task.step?_reports hs with ⟨o, hfinish, -⟩ | ⟨-, hnone⟩
      · exact absurd rfl ((ht _ hfinish).root.1 o)
      · exact absurd hp (hnone result elapsed)
    | panicked payload' =>
      exact congrArg Progress.panicked ((ht _ (Task.step?_panicked hs hp)).root.2 payload' rfl)
  · intro hend
    rw [hlive] at hend
    cases hend

/-- A check that cannot panic has not. -/
theorem calm_passes (hq : Passes p q) (hk : p.tasks[k]? = some t)
    (ht : t.Always Behaviour.KeepsCalm) (hlive : t.hasEnded = false) (hu : q.tasks[k]? = some u) :
    u.progress.isPanic = false := by
  refine (keeps_passes (K := fun t => t.Always Behaviour.KeepsCalm ∧ t.progress.isPanic = false)
    ?_ hq hk ⟨ht, ?_⟩ hu).2
  · rintro t cs now s ⟨ht, -⟩ hs
    refine ⟨Task.always_step ht hs, ?_⟩
    cases hp : s.progress with
    | running b => rfl
    | returned result elapsed => rfl
    | panicked payload' => exact absurd rfl ((ht _ (Task.step?_panicked hs hp)).root payload')
  · cases hp : t.progress with
    | running b => rfl
    | returned result elapsed => rfl
    | panicked payload' =>
      rw [Task.hasEnded, hp] at hlive
      cases hlive

/-- **A result is not there before the check has taken its time.** -/
theorem elapsed_le_now (hq : Passes p q) (hk : p.tasks[k]? = some t) (hlive : t.hasEnded = false)
    (hstart : t.started ≤ p.now) (hu : q.tasks[k]? = some u) {result : CheckResult}
    {elapsed : Duration} (hr : u.progress = .returned result elapsed) :
    t.started + elapsed ≤ q.now := by
  induction hq generalizing u with
  | refl =>
    obtain rfl := Option.some.inj (hk.symm.trans hu)
    rw [Task.hasEnded, hr] at hlive
    cases hlive
  | tail hpass hg ih =>
    obtain ⟨g, hnow⟩ := task_passes hpass hk
    have hlater := now_passes (.single hg)
    cases hg with
    | waits => exact (ih hu hr).trans hlater
    | moves hm =>
      rcases task_moves hm hnow with hstay | ⟨s, hs, rfl⟩
      · obtain rfl := Option.some.inj (hstay.symm.trans hu)
        exact (ih hnow hr).trans hlater
      · obtain rfl := Option.some.inj ((getElem?_put hnow s).symm.trans hu)
        rcases Task.step?_reports hs with ⟨o, -, -, hprogress, -⟩ | ⟨-, hnone⟩
        · obtain ⟨-, rfl⟩ := Progress.returned.inj (hr.symm.trans hprogress)
          exact (Nat.add_sub_of_le (hstart.trans (now_passes hpass))).le
        · exact absurd hr (hnone result elapsed)

/-- **Nobody but the callers cancels their contexts**: one that is cancelled has been so before, or it was
planned for it or for one above it. -/
theorem canceled_of_passes {cs : List Context} (hp : p.Apart cs) (hq : Passes p q) {c : Context}
    (hc : c ∈ cs) (hcanceled : q.contexts.isCanceled c.node = true) :
    p.contexts.isCanceled c.node = true ∨ ∃ x ∈ p.plans, x.node ∈ p.contexts.lineage c.node := by
  suffices h : (∀ x ∈ q.plans, x ∈ p.plans) ∧ (q.contexts.isCanceled c.node = true →
      p.contexts.isCanceled c.node = true ∨ ∃ x ∈ p.plans, x.node ∈ p.contexts.lineage c.node) from
    h.2 hcanceled
  clear hcanceled
  induction hq with
  | refl => exact ⟨fun x hx => hx, Or.inl⟩
  | @tail a b hpass hg ih =>
    obtain ⟨hplans, hold⟩ := ih
    have ha := hp.passes hpass
    have hline := lineage_of_cancels (cancels_passes hpass) c.node
    refine ⟨fun x hx => hplans x (plans_goes hg x hx), fun hb => ?_⟩
    rcases goes_cases hg with ⟨before, x, after, hx, -, rfl⟩ | ⟨k, t, s, hk, hs, rfl⟩ |
      ⟨_, -, -, -, rfl⟩
    · rcases (Contexts.isCanceled_cancelNode ha.wellFormed _ _).1 hb with hb | ⟨-, hmem⟩
      · exact hold hb
      · refine Or.inr ⟨x, hplans x (by rw [hx]; simp), ?_⟩
        rwa [hline] at hmem
    · have hb : s.contexts.isCanceled c.node = true := hb
      rcases Task.step?_contexts hs with hsame | ⟨hsame, -⟩
      · rw [hsame] at hb
        exact hold hb
      · rw [hsame] at hb
        rcases (Contexts.isCanceled_cancelNode ha.wellFormed _ _).1 hb with hb | ⟨-, hmem⟩
        · exact hold hb
        · exact absurd hmem (ha.apart t (List.mem_of_getElem? hk) c hc)
    · exact hold hb

end Pool

/-! ## Endings in a panic -/

namespace Readiness

variable {r : Readiness} {h h' : HealthState} {cs : List Context} {parent : Context} {v : Verdict}
  {entries : List Entry}

/-- An evaluation that started in state `h`, when callers had the contexts `cs` in hand, has ended in a
panic and left state `h'` behind. -/
structure EndsInPanic (r : Readiness) (parent : Context) (cs : List Context) (h : HealthState)
    (payload : Payload) (v : Verdict) (h' : HealthState) (entries : List Entry) : Prop where
  verdict_eq : v = .panic payload
  /-- All checks have been run, and all of them have ended by then. -/
  names_eq : (h'.pool.tasks.drop h.pool.tasks.length).map Task.name = r.names
  ended : ∀ t ∈ h'.pool.tasks.drop h.pool.tasks.length, t.hasEnded = true ∧
    ∀ result elapsed, t.progress = .returned result elapsed → h.pool.now + elapsed ≤ h'.pool.now
  /-- The context of the evaluation is cancelled. -/
  canceled : h'.pool.contexts.isCanceled (r.derive h.pool parent).2.node = true
  /-- What was there before is as it might be without the evaluation. -/
  unaffected : ∃ p, Passes h.pool p ∧ Unaffected h p h'.pool
  /-- The contexts of the callers, the parent among them, are cancelled by nobody else. -/
  untouched : ∀ c ∈ cs, h'.pool.contexts.isCanceled c.node = true →
    h.pool.contexts.isCanceled c.node = true ∨
      ∃ x ∈ h.pool.plans, x.node ∈ h.pool.contexts.lineage c.node
  quiet : ∃ es, h'.pool.log = h.pool.log ++ es ∧ ∀ e ∈ es ++ entries, ¬ e.event.OfReadiness
  ready_eq : h'.metrics.ready = h.metrics.ready

theorem node_derive (r : Readiness) (p : Pool) (parent : Context) :
    (r.derive p parent).2.node = p.contexts.nodes.length := by
  rw [derive_eq]

/-- However an evaluation ends, its context is cancelled. -/
theorem isCanceled_derived_of_ends (hp : h.pool.Apart cs) (hparent : parent ∈ cs)
    (he : r.Ends parent h v h' entries) :
    h'.pool.contexts.isCanceled (r.derive h.pool parent).2.node = true := by
  obtain ⟨q, hq, heq⟩ := passes_of_ends he
  have hwf := wellFormed_launch (r := r) hp.wellFormed (hp.callers_lt parent hparent)
  have hlt : h.pool.contexts.nodes.length < q.contexts.nodes.length := by
    rw [length_of_cancels (cancels_passes hq), length_launch]
    omega
  rw [heq, node_derive]
  exact Contexts.isCanceled_cancelNode_self (wellFormed_of_cancels (cancels_passes hq) hwf) hlt

/-- **What an evaluation leaves behind of which some check has panicked.**  The payload is that of the first
one in the list. -/
theorem panicked_of_ends (hp : h.pool.Apart cs) (hparent : parent ∈ cs)
    (he : r.Ends parent h v h' entries) (hv : v ≠ .abandoned) {i : Nat} {payload : Payload}
    (hfirst : FirstPanic (h'.pool.tasks.drop h.pool.tasks.length) i payload) :
    r.EndsInPanic parent cs h payload v h' entries := by
  have hcanceled := isCanceled_derived_of_ends hp hparent he
  have hunaffected := unaffected_of_ends hp hparent he
  obtain ⟨es, hlog, hes⟩ := log_of_ends he
  have huntouched : ∀ c ∈ cs, h'.pool.contexts.isCanceled c.node = true →
      h.pool.contexts.isCanceled c.node = true ∨
        ∃ x ∈ h.pool.plans, x.node ∈ h.pool.contexts.lineage c.node := by
    intro c hc hcanceled
    obtain ⟨p, hpass, hsame⟩ := hunaffected
    rw [← hsame.canceled_eq _ (hp.callers_lt c hc)] at hcanceled
    exact canceled_of_passes hp hpass hc hcanceled
  cases he with
  | dropped => exact absurd rfl hv
  | @concluded q hq hend =>
    have hall : ∀ t ∈ q.tasks.drop h.pool.tasks.length, t.hasEnded = true := by
      rwa [hasEndedFrom, List.all_eq_true] at hend
    have hpanic : (collect (q.tasks.drop h.pool.tasks.length)).2 = some payload :=
      (collect_eq_some_iff hall).2 ⟨i, hfirst⟩
    have hverdict : (r.conclude h.metrics (q.tasks.drop h.pool.tasks.length)).1 = .panic payload := by
      simp only [conclude, hpanic]
    rcases r.conclude_announced h.metrics (q.tasks.drop h.pool.tasks.length) with
      ⟨_, -, hnone, hready⟩ | ⟨x, hresponse, -⟩
    · refine ⟨hverdict, names_of_passes (q := q) hq, fun t ht => ⟨hall t ht, fun result elapsed hr => ?_⟩,
        hcanceled, hunaffected, huntouched, ⟨es, hlog, ?_⟩, hready⟩
      · obtain ⟨j, hj⟩ := List.getElem?_of_mem ht
        rw [List.getElem?_drop] at hj
        obtain ⟨c, -, hstart⟩ := begun_of_passes hq hj
        exact elapsed_le_now hq hstart rfl (now_launch r h.pool parent).ge hj hr
      · rw [hnone, List.append_nil]
        exact hes
    · rw [hverdict] at hresponse
      cases hresponse

/-- The first check in the list that cannot but panic is the first that has panicked, if those before it
cannot. -/
theorem firstPanic_of_ends (he : r.Ends parent h v h' entries) (hv : v ≠ .abandoned) {i : Nat}
    {c : Checker} {payload : Payload} (hi : r.checkers[i]? = some c)
    (hpanics : c.behaviour.Always (Behaviour.PanicsWith payload))
    (hcalm : ∀ j < i, ∀ d, r.checkers[j]? = some d → d.behaviour.Always Behaviour.KeepsCalm) :
    FirstPanic (h'.pool.tasks.drop h.pool.tasks.length) i payload := by
  cases he with
  | dropped => exact absurd rfl hv
  | @concluded q hq hend =>
    have hstart := task_launch h.pool parent hi
    obtain ⟨g, hg⟩ := task_passes hq hstart
    have hpanicked := panicked_passes hq hstart (fun b hb => by cases hb; exact hpanics) rfl hg
      (hasEnded_of_hasEndedFrom hend (Nat.le_add_right _ _) hg)
    refine ⟨?_, fun j hj t ht => ?_⟩
    · show ((q.tasks.drop h.pool.tasks.length)[i]?).map Task.progress = _
      rw [List.getElem?_drop, hg]
      exact congrArg some hpanicked
    · have ht : (q.tasks.drop h.pool.tasks.length)[j]? = some t := ht
      rw [List.getElem?_drop] at ht
      obtain ⟨d, hd, hbegun⟩ := begun_of_passes hq ht
      exact calm_passes hq hbegun (fun b hb => by cases hb; exact hcalm j hj d hd) rfl ht

/-- **How every evaluation ends of which some check panics**, in every history of a service, for all
checkers and budgets, every caller and every order of events.

* If it is not dropped, all its checks have ended, and one of them has panicked, then it ends in a panic
  itself.  The payload is that of the first of them in the list, whichever panicked first.
* So if the checks at the beginning of the list never panic and the next one always does, with one payload,
  this is the payload, whatever the others do.
* `Readiness.evaluate` does end so, if its caller waits and no check waits for what never comes.  It is one
  of the endings in any case. -/
theorem panics_by_place (hs : Served h cs) (hparent : parent ∈ cs) (r : Readiness) :
    (∀ v h' entries, r.Ends parent h v h' entries → v ≠ .abandoned →
      ((h'.pool.tasks.drop h.pool.tasks.length).any fun t => t.progress.isPanic) = true →
      ∃ i payload, FirstPanic (h'.pool.tasks.drop h.pool.tasks.length) i payload ∧
        r.EndsInPanic parent cs h payload v h' entries) ∧
    (∀ i c payload, r.checkers[i]? = some c →
      c.behaviour.Always (Behaviour.PanicsWith payload) →
      (∀ j < i, ∀ d, r.checkers[j]? = some d → d.behaviour.Always Behaviour.KeepsCalm) →
      (∀ v h' entries, r.Ends parent h v h' entries → v ≠ .abandoned →
        FirstPanic (h'.pool.tasks.drop h.pool.tasks.length) i payload ∧
          r.EndsInPanic parent cs h payload v h' entries) ∧
      ((∀ d ∈ r.checkers, d.behaviour.Always
          (Behaviour.WaitsFor (r.budgets.checkDeadline h.pool.now parent.deadline))) →
        (r.evaluate parent none h).1 = .panic payload)) ∧
    ∀ limit, r.Ends parent h (r.evaluate parent limit h).1 (r.evaluate parent limit h).2.1
      (r.evaluate parent limit h).2.2 := by
  have hp := apart_of_served hs
  refine ⟨fun v h' entries he hv hany => ?_, fun i c payload hi hpanics hcalm => ⟨?_, ?_⟩,
    fun limit => ends_evaluate r parent limit h⟩
  · obtain ⟨i, payload, hfirst⟩ := FirstPanic.exists_of_any hany
    exact ⟨i, payload, hfirst, panicked_of_ends hp hparent he hv hfirst⟩
  · intro v h' entries he hv
    have hfirst := firstPanic_of_ends he hv hi hpanics hcalm
    exact ⟨hfirst, panicked_of_ends hp hparent he hv hfirst⟩
  · intro hwaits
    have he := ends_evaluate r parent none h
    have hv : (r.evaluate parent none h).1 ≠ .abandoned := evaluate_of_waits rfl hwaits
    have hfirst := firstPanic_of_ends he hv hi hpanics hcalm
    exact (panicked_of_ends hp hparent he hv hfirst).verdict_eq

/-- The second of three checks is not the first to panic, and not the last to end. -/
theorem panics_by_place_of_three :
    let r : Readiness := { checkers := [⟨"slow", .sleepUntil 5000000 (.finish ⟨.ok, none⟩)⟩,
      ⟨"late", .sleepUntil 3000000 (.panic (.text "late"))⟩, ⟨"early", .panic (.text "early")⟩] }
    let h : HealthState := { pool := { contexts := ({} : Contexts).background.1 } }
    (r.evaluate ⟨0, none⟩ none h).1 = .panic (.text "late") ∧
      r.EndsInPanic ⟨0, none⟩ [⟨0, none⟩] h (.text "late") (r.evaluate ⟨0, none⟩ none h).1
        (r.evaluate ⟨0, none⟩ none h).2.1 (r.evaluate ⟨0, none⟩ none h).2.2 := by
  intro r h
  have hserved : Served h [⟨0, none⟩] := .background (.start 0)
  have hpanics : r.checkers[1].behaviour.Always (Behaviour.PanicsWith (.text "late")) := by
    refine ⟨⟨nofun, nofun⟩, fun b hb => ?_⟩
    cases hb
    exact ⟨⟨nofun, fun payload hpayload => (Behaviour.panic.inj hpayload).symm⟩, nofun⟩
  have hcalm : ∀ j < 1, ∀ d, r.checkers[j]? = some d → d.behaviour.Always Behaviour.KeepsCalm := by
    intro j hj d hd
    obtain rfl : j = 0 := Nat.lt_one_iff.1 hj
    obtain rfl := Option.some.inj hd
    refine ⟨nofun, fun b hb => ?_⟩
    cases hb
    exact ⟨nofun, nofun⟩
  have hwaits : ∀ d ∈ r.checkers, d.behaviour.Always
      (Behaviour.WaitsFor (r.budgets.checkDeadline h.pool.now none)) := by
    intro d hd
    simp only [r, List.mem_cons, List.not_mem_nil, or_false] at hd
    rcases hd with rfl | rfl | rfl
    · refine ⟨nofun, fun b hb => ?_⟩
      cases hb
      exact ⟨nofun, nofun⟩
    · refine ⟨nofun, fun b hb => ?_⟩
      cases hb
      exact ⟨nofun, nofun⟩
    · exact ⟨nofun, nofun⟩
  obtain ⟨-, hplace, hends⟩ := panics_by_place hserved List.mem_cons_self r
  obtain ⟨hall, heval⟩ := hplace 1 _ (.text "late") rfl hpanics hcalm
  have hpanic := heval hwaits
  refine ⟨hpanic, (hall _ _ _ (hends none) ?_).2⟩
  rw [hpanic]
  exact nofun

end Readiness
end HealthService
