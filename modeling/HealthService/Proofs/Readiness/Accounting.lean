import HealthService.Proofs.Readiness.Counting

/-!
# The accounts of a registry

Evaluations of several aggregators may be counted in one registry, one after another.  `Accounts` are
the histories of such a registry: which evaluations there have been, how each of them has ended, and
what was logged from its start to its end.  Some may have panicked or been dropped, and the checks that
these have left over may still be running.

* `exists_accounts_of_served` — every history of a service is one of a registry.
* `grows_of_ends` — **what one evaluation adds to the counts**, however it ends.
* `Balanced.evaluated` — the accounts still balance after one more evaluation.
* `accounts_balance` — **the accounts balance after every history**: totals, durations and gauge agree
  with each other and with the responses, and each response was logged once.
-/

namespace HealthService

open Pool

/-! ## Events of readiness -/

/-- Whether an event tells how an evaluation has ended. -/
def Event.tellsReadiness : Event → Bool
  | .readinessOk _ | .readinessFailed _ => true
  | _ => false

theorem Event.tellsReadiness_iff (e : Event) : e.tellsReadiness = true ↔ e.OfReadiness := by
  cases e <;> simp [tellsReadiness, OfReadiness]

instance : DecidablePred Event.OfReadiness := fun e => decidable_of_iff _ e.tellsReadiness_iff

/-! ## Histories -/

/-- The response of an evaluation that has come to one. -/
def Verdict.response? : Verdict → Option ReadyResponse
  | .response x => some x
  | _ => none

/-- Whether an evaluation has panicked. -/
def Verdict.isPanic : Verdict → Bool
  | .panic _ => true
  | _ => false

/-- An evaluation that is over. -/
structure Evaluated where
  readiness : Readiness
  verdict : Verdict
  /-- What was logged from its start to its end, by whomever. -/
  entries : List Entry

namespace Evaluated

/-- The response that is counted in the registry, if there is one. -/
def counted? (e : Evaluated) : Option ReadyResponse :=
  if e.readiness.metered then e.verdict.response? else none

/-- The events of readiness that were logged from its start to its end. -/
def announced (e : Evaluated) : List Event :=
  (e.entries.map Entry.event).filter fun x => x.OfReadiness

end Evaluated

/-- The responses that have been counted in a registry, in their order. -/
def responses (past : List Evaluated) : List ReadyResponse := past.filterMap Evaluated.counted?

/-- The histories of a registry.  It is counted in by evaluations alone; between two of them anything
may happen to the contexts, and to checks that are left over. -/
inductive Accounts : List Evaluated → HealthState → Prop
  | start (pool : Pool) : Accounts [] { pool := pool }
  | meanwhile {past : List Evaluated} {h : HealthState} (ha : Accounts past h) (pool : Pool) :
      Accounts past { h with pool := pool }
  | evaluated {past : List Evaluated} {h h' : HealthState} {r : Readiness} {parent : Context}
      {v : Verdict} {entries : List Entry} (ha : Accounts past h) (he : r.Ends parent h v h' entries) :
      Accounts (past ++ [⟨r, v, h'.pool.log.drop h.pool.log.length ++ entries⟩]) h'

/-- Every history of a service is one of its registry. -/
theorem exists_accounts_of_served {h : HealthState} {cs : List Context} (hs : Served h cs) :
    ∃ past, Accounts past h := by
  induction hs with
  | start now => exact ⟨[], .start _⟩
  | evaluated _ _ he ih =>
    obtain ⟨past, ha⟩ := ih
    exact ⟨_, ha.evaluated he⟩
  | _ =>
    rename_i ih
    obtain ⟨past, ha⟩ := ih
    exact ⟨past, ha.meanwhile _⟩

/-! ## What one evaluation adds -/

/-- The results by which the counts have grown, with the durations. -/
structure Metrics.Grows (m m' : Metrics) (results : List (CheckResult × Duration)) : Prop where
  count_eq : ∀ name status, m'.count name status =
    m.count name status + results.countP fun x => x.1.name = name ∧ x.1.status = status
  durations_eq : ∀ name, m'.durations name =
    m.durations name ++ (results.filter fun x => x.1.name = name).map Prod.snd

namespace Readiness

variable {r : Readiness} {h h' : HealthState} {parent : Context} {v : Verdict} {entries : List Entry}

/-- An evaluation without metrics changes none. -/
theorem metrics_conclude (hplain : r.metered = false) (m : Metrics) (ts : List Task) :
    (r.conclude m ts).2.1 = m := by
  cases hpanic : (collect ts).2 <;> simp [conclude, count, hpanic, hplain]

/-- What is counted of an evaluation that is concluded. -/
theorem grows_conclude (r : Readiness) (m : Metrics) (ts : List Task) :
    m.Grows (r.conclude m ts).2.1 (if r.metered then told ts else []) := by
  cases hmetered : r.metered with
  | true => exact ⟨count_conclude hmetered m ts, durations_conclude hmetered m ts⟩
  | false =>
    rw [metrics_conclude hmetered]
    exact ⟨fun _ _ => rfl, fun _ => (List.append_nil _).symm⟩

/-- **A conclusion is a panic that is not announced, or a response that is.**  The response lists the
told results, and the gauge follows it. -/
theorem conclude_announced (r : Readiness) (m : Metrics) (ts : List Task) :
    (∃ payload, (r.conclude m ts).1 = .panic payload ∧ (r.conclude m ts).2.2 = [] ∧
      (r.conclude m ts).2.1.ready = m.ready) ∨
    ∃ x, (r.conclude m ts).1 = .response x ∧ (r.conclude m ts).2.2 = [⟨event x, []⟩] ∧
      x.checks = (told ts).map Prod.fst ∧
      (r.conclude m ts).2.1.ready = if r.metered then x.status.isOk else m.ready := by
  have hready : ∀ xs, (r.count m xs).ready = m.ready := by
    intro xs
    unfold count
    split
    · induction xs generalizing m with
      | nil => rfl
      | cons x xs ih => exact ih _
    · rfl
  cases hpanic : (collect ts).2 with
  | some payload =>
    refine Or.inl ⟨payload, ?_, ?_, ?_⟩ <;> simp only [conclude, hpanic, hready]
  | none =>
    refine Or.inr ⟨r.respond ((collect ts).1.map Prod.fst), ?_, ?_, ?_, ?_⟩
    · simp only [conclude, hpanic]
    · simp only [conclude, hpanic]
    · rw [← collect_fst]
      rfl
    · simp only [conclude, hpanic]
      split
      · rfl
      · exact hready _

/-- **What one evaluation adds to the counts**, however it ends: some results, which are those of its
response if it has not panicked. -/
theorem grows_of_ends (he : r.Ends parent h v h' entries) (es : List Entry) :
    ∃ results, h.metrics.Grows h'.metrics results ∧
      (v.isPanic = false ∨ r.metered = false →
        results.map Prod.fst = ((Evaluated.mk r v es).counted?.map ReadyResponse.checks).getD []) ∧
      h'.metrics.ready =
        ((Evaluated.mk r v es).counted?.map fun x => x.status.isOk).getD h.metrics.ready := by
  cases he with
  | dropped =>
    refine ⟨[], ⟨fun _ _ => rfl, fun _ => (List.append_nil _).symm⟩, fun _ => ?_, ?_⟩ <;>
      simp [Evaluated.counted?, Verdict.response?]
  | @concluded q hq hend =>
    refine ⟨_, grows_conclude r h.metrics _, ?_⟩
    rcases r.conclude_announced h.metrics (q.tasks.drop h.pool.tasks.length) with
      ⟨payload, hv, -, hready⟩ | ⟨x, hv, -, hchecks, hready⟩
    · rw [hv]
      refine ⟨fun hcalm => ?_, ?_⟩
      · have hplain : r.metered = false := hcalm.resolve_left nofun
        simp [Evaluated.counted?, hplain]
      · simpa [Evaluated.counted?, Verdict.response?] using hready
    · rw [hv]
      cases hmetered : r.metered <;>
        simp_all [Evaluated.counted?, Verdict.response?]

/-- The event that tells of a response. -/
theorem event_eq (x : ReadyResponse) : event x =
    if x.status = .ok then .readinessOk x.checks.length
    else .readinessFailed ((x.checks.filter fun y => y.status = .error).map CheckResult.name) := by
  have hfailed : x.failed =
      (x.checks.filter fun y => y.status = .error).map CheckResult.name := by
    refine congrArg _ (List.filter_congr fun y _ => ?_)
    cases y.status <;> rfl
  rw [event, hfailed]
  cases x.status <;> rfl

theorem ofReadiness_event (x : ReadyResponse) : (event x).OfReadiness := by
  rw [event_eq]
  split
  · exact Or.inl ⟨_, rfl⟩
  · exact Or.inr ⟨_, rfl⟩

/-- An evaluation itself logs one event if it comes to a response, and nothing else. -/
theorem entries_of_ends (he : r.Ends parent h v h' entries) :
    entries = (v.response?.map fun x => Entry.mk (event x) []).toList := by
  cases he with
  | dropped => rfl
  | @concluded q hq hend =>
    rcases r.conclude_announced h.metrics (q.tasks.drop h.pool.tasks.length) with
      ⟨payload, hv, hentries, -⟩ | ⟨x, hv, hentries, -⟩ <;>
    · rw [hv, hentries]
      rfl

/-- **A response is announced once**, and nothing else is. -/
theorem announced_of_ends (he : r.Ends parent h v h' entries) :
    (Evaluated.mk r v (h'.pool.log.drop h.pool.log.length ++ entries)).announced =
      (v.response?.map event).toList := by
  obtain ⟨es, hlog, hes⟩ := log_of_ends he
  have hquiet : (es.map Entry.event).filter (fun x => x.OfReadiness) = [] := by
    rw [List.filter_eq_nil_iff, List.forall_mem_map]
    exact fun e he => by simpa using hes e he
  rw [Evaluated.announced, hlog, List.drop_left, List.map_append, List.filter_append, hquiet,
    List.nil_append, entries_of_ends he]
  cases v.response? with
  | none => rfl
  | some x => exact List.filter_eq_self.2 (by simpa using ofReadiness_event x)

end Readiness

/-! ## The balance -/

/-- The accounts balance: each check has as many durations as results, the gauge tells of the last
response, and unless an evaluation has panicked the results are those of the responses. -/
structure Balanced (past : List Evaluated) (m : Metrics) : Prop where
  observed : ∀ name, (m.durations name).length = m.count name .ok + m.count name .error
  ready_eq : m.ready = ((responses past).getLast?.map fun x => x.status.isOk).getD false
  count_eq : (∀ e ∈ past, e.readiness.metered = true → e.verdict.isPanic = false) →
    ∀ name status, m.count name status =
      ((responses past).flatMap ReadyResponse.checks).countP fun y =>
        y.name = name ∧ y.status = status

namespace Balanced

theorem empty : Balanced [] {} := ⟨fun _ => rfl, rfl, fun _ _ _ => rfl⟩

/-- Results of one name are in order, or not. -/
theorem length_filter_name (results : List (CheckResult × Duration)) (name : String) :
    (results.filter fun x => x.1.name = name).length =
      (results.countP fun x => x.1.name = name ∧ x.1.status = .ok) +
        results.countP fun x => x.1.name = name ∧ x.1.status = .error := by
  rw [← List.countP_eq_length_filter]
  induction results with
  | nil => rfl
  | cons x results ih =>
    rw [List.countP_cons, List.countP_cons, List.countP_cons, ih]
    by_cases hname : x.1.name = name
    · cases x.1.status <;> simp [hname] <;> omega
    · simp [hname]

theorem responses_concat (past : List Evaluated) (e : Evaluated) :
    responses (past ++ [e]) = responses past ++ e.counted?.toList := by
  rw [responses, List.filterMap_append]
  cases he : e.counted? <;> simp [responses, he]

/-- **The accounts still balance after one more evaluation.** -/
theorem evaluated {past : List Evaluated} {h h' : HealthState} {r : Readiness} {parent : Context}
    {v : Verdict} {entries : List Entry} (hb : Balanced past h.metrics)
    (he : r.Ends parent h v h' entries) (es : List Entry) :
    Balanced (past ++ [⟨r, v, es⟩]) h'.metrics := by
  obtain ⟨results, hgrows, hresults, hready⟩ := Readiness.grows_of_ends he es
  refine ⟨fun name => ?_, ?_, fun hcalm name status => ?_⟩
  · rw [hgrows.durations_eq, List.length_append, List.length_map, hb.observed, length_filter_name,
      hgrows.count_eq, hgrows.count_eq]
    omega
  · rw [hready, responses_concat, hb.ready_eq]
    cases (Evaluated.mk r v es).counted? <;> simp
  · rw [List.forall_mem_append, List.forall_mem_singleton] at hcalm
    have hlisted : results.map Prod.fst =
        (Evaluated.mk r v es).counted?.toList.flatMap ReadyResponse.checks := by
      rw [hresults (by cases hm : r.metered <;> simp_all)]
      cases (Evaluated.mk r v es).counted? <;> simp
    rw [hgrows.count_eq, hb.count_eq hcalm.1, responses_concat, List.flatMap_append,
      List.countP_append, ← hlisted, List.countP_map]
    rfl

end Balanced

/-! ## After every history -/

section

variable {past : List Evaluated} {h : HealthState} (ha : Accounts past h)

include ha

theorem balanced_of_accounts : Balanced past h.metrics := by
  induction ha with
  | start pool => exact .empty
  | meanwhile _ _ ih => exact ih
  | evaluated _ he ih => exact ih.evaluated he _

theorem announced_of_accounts :
    ∀ e ∈ past, e.announced = (e.verdict.response?.map Readiness.event).toList := by
  induction ha with
  | start pool => exact List.forall_mem_nil _
  | meanwhile _ _ ih => exact ih
  | evaluated _ he ih =>
    rw [List.forall_mem_append, List.forall_mem_singleton]
    exact ⟨ih, Readiness.announced_of_ends he⟩

/-- **The accounts balance after every history**, with any checkers, whether evaluations return, panic
or are dropped, and whatever is left over from them:

* each check has as many durations as results of either status;
* the gauge tells of the last response that was counted, and is zero if there is none;
* unless an evaluation has panicked, the total of a name and a status is the number of such results in
  all responses;
* each response was announced by one event, in order or with the names of those that are not, and
  nothing was announced of evaluations without a response. -/
theorem accounts_balance :
    (∀ name, (h.metrics.durations name).length =
      h.metrics.count name .ok + h.metrics.count name .error) ∧
    (h.metrics.gauge = match (responses past).getLast? with
      | some x => if x.status = .ok then 1 else 0
      | none => 0) ∧
    ((∀ e ∈ past, e.readiness.metered = true → e.verdict.isPanic = false) →
      ∀ name status, h.metrics.count name status =
        ((responses past).flatMap ReadyResponse.checks).countP fun y =>
          y.name = name ∧ y.status = status) ∧
    ∀ e ∈ past, e.announced = match e.verdict with
      | .response x =>
        [if x.status = .ok then .readinessOk x.checks.length
          else .readinessFailed ((x.checks.filter fun y => y.status = .error).map CheckResult.name)]
      | _ => [] := by
  have hb := balanced_of_accounts ha
  refine ⟨hb.observed, ?_, hb.count_eq, fun e he => ?_⟩
  · rw [Metrics.gauge, hb.ready_eq]
    cases (responses past).getLast? with
    | none => rfl
    | some x => cases hs : x.status <;> simp [hs, Status.isOk]
  · rw [announced_of_accounts ha e he]
    cases e.verdict with
    | response x => exact congrArg List.singleton (Readiness.event_eq x)
    | _ => rfl

end

/-- Two checks of one name are counted beside one that a dropped evaluation has left over. -/
theorem accounts_beside_leftover :
    let slow : Readiness := {
      checkers := [⟨"slow", .sleepUntil 5000000000 (.finish ⟨.ok, none⟩)⟩]
      metered := true }
    let r : Readiness := {
      checkers := [⟨"db", .finish ⟨.ok, none⟩⟩, ⟨"db", .finish ⟨.error, some "down"⟩⟩]
      budgets := .unbounded
      metered := true }
    ∃ past h, Accounts past h ∧
      past.map (fun e => (e.readiness.names, e.verdict.response?.map ReadyResponse.status)) =
        [(slow.names, none), (r.names, some .error)] ∧
      (∃ t ∈ h.pool.tasks, t.hasEnded = false) ∧ h.metrics.gauge = 0 ∧
      h.metrics.count "db" .ok = 1 ∧ h.metrics.count "db" .error = 1 ∧
      (h.metrics.durations "db").length = 2 ∧ h.metrics.count "slow" .ok = 0 := by
  intro slow r
  let h₀ : HealthState := { pool := { contexts := ({} : Contexts).background.1 } }
  let h₁ : HealthState := ⟨Readiness.left h₀ (slow.launch h₀.pool ⟨0, none⟩), h₀.metrics⟩
  have hdropped : slow.Ends ⟨0, none⟩ h₀ .abandoned h₁ [] := .dropped .refl
  have hfirst := moves_put (Readiness.task_launch (r := r) h₁.pool ⟨0, none⟩ (i := 0) rfl) rfl
  have hboth : Passes (r.launch h₁.pool ⟨0, none⟩) _ :=
    .tail (.single (.moves hfirst)) (.moves (moves_put (k := 2) rfl rfl))
  have ha := ((Accounts.start h₀.pool).evaluated hdropped).evaluated (.concluded hboth rfl)
  obtain ⟨hobserved, hgauge, htotals, -⟩ := accounts_balance ha
  have hcalm := htotals (by decide)
  refine ⟨_, _, ha, rfl, ⟨_, List.mem_cons_self, rfl⟩, hgauge, hcalm "db" .ok, hcalm "db" .error,
    ?_, hcalm "slow" .ok⟩
  rw [hobserved, hcalm, hcalm]
  rfl

end HealthService
