import HealthService.Proofs.Config.Probes
import HealthService.Proofs.Config.ReadBack
import HealthService.Proofs.Config.Validity
import HealthService.Proofs.Service.Limits

/-!
# What a configuration says is carried out

The section on checks is read twice: by validation, and again when the probes, the budgets and the handler
are made from it.  Both have to mean the same checks, names and times.

* `duplicates_eq_repeated` — a handler warns of the names that validation warns of.
* `Health.deadlines_budgets` — the deadlines are those that the numbers of the section set.
* `Readiness.starts_checks` — an evaluation starts the configured checks in their order.
* `carried_out` — **the handler of an accepted configuration does what the configuration says**: which
  checks it runs, in which order and until when, and of which names it warns.
-/

namespace HealthService
namespace Config

/-! ## Names -/

/-- **A handler warns of the names that validation warns of.** -/
theorem duplicates_eq_repeated (seen names : List String) :
    HealthHandler.duplicates seen names = repeated seen names := by
  induction names generalizing seen with
  | nil => rfl
  | cons name names ih =>
    rw [repeated_cons, ← ih, HealthHandler.duplicates]
    by_cases h : name ∈ seen <;> simp [h]

/-- Validation gets to see all checks of a valid configuration. -/
theorem Valid.acceptedChecks_eq {c : Config} (h : c.Valid) : c.acceptedChecks = c.health.checks := by
  have hserver : c.server.faults = [] := (List.append_eq_nil_iff.1 (faults_eq_nil_iff.2 h)).1
  rw [acceptedChecks, if_pos hserver]
  exact List.takeWhile_eq_self_iff.2 fun p hp => decide_eq_true (h.checks p hp)

/-- What an accepted configuration is warned of are the names that stand further to the front as well. -/
theorem warnings_of_parse {markup : Markup} {text : List Char} {c : Config} {warnings : List Entry}
    (h : parse markup text = (.ok c, warnings)) :
    warnings = (repeated [] (c.health.checks.map Probe.name)).map duplicateWarning := by
  have hvalidate := (parse_eq_ok_iff.1 h).2
  have hvalid : c.Valid := validate_eq_ok_iff.1 (by rw [hvalidate])
  rw [← hvalid.acceptedChecks_eq, ← validate_snd, hvalidate]

/-! ## Times -/

/-- The deadline that a number of milliseconds sets at some time: none if it is zero. -/
def deadlineAfter (now : Time) (millis : UInt64) : Option Time :=
  if millis = 0 then none else now.after? (.ofMillis millis.toNat)

theorem ofMillis_eq_zero_iff {n : UInt64} : Duration.ofMillis n.toNat = 0 ↔ n = 0 := by
  rw [Duration.ofMillis, Nat.mul_eq_zero, or_iff_left (by decide), ← UInt64.toNat_inj]
  rfl

/-- The deadline is right where the clock is not at its end. -/
theorem deadlineAfter_eq {now : Time} (h : now + Duration.ofMillis 0x10000000000000000 ≤ Time.horizon)
    (millis : UInt64) : deadlineAfter now millis =
      if millis = 0 then none else some (now + Duration.ofMillis millis.toNat) := by
  have hmillis : Duration.ofMillis millis.toNat < .ofMillis 0x10000000000000000 :=
    Nat.mul_lt_mul_of_pos_right millis.toNat_lt (by decide)
  have hlt : now + Duration.ofMillis millis.toNat < Time.horizon :=
    (Nat.add_lt_add_left hmillis now).trans_le h
  rw [deadlineAfter, Time.after?, if_pos hlt]

/-- There is a budget for the single check unless its number is zero. -/
theorem Health.perCheck_budgets (s : Health) : s.budgets.perCheck =
    if s.perCheckMillis = 0 then none else some (.ofMillis s.perCheckMillis.toNat) := by
  have hzero := ofMillis_eq_zero_iff (n := s.perCheckMillis)
  by_cases h : s.perCheckMillis = 0
  · rw [if_pos h, budgets, hzero.2 h]
    rfl
  · rw [if_neg h, budgets, Option.filter_some_pos (by simpa [hzero] using h)]

/-- All deadlines that bear on a check of a section: the caller's, the one of the evaluation and its own. -/
def Health.deadlines (s : Health) (now : Time) (deadline : Option Time) : List Time :=
  [deadline, deadlineAfter now s.overallMillis, deadlineAfter now s.perCheckMillis].reduceOption

/-- **The budgets of a section set the deadlines that its numbers say.** -/
theorem Health.deadlines_budgets (s : Health) (now : Time) (deadline : Option Time) :
    s.budgets.deadlines now deadline = s.deadlines now deadline := by
  have hperCheck : (s.budgets.perCheck.bind fun d => if d = 0 then none else now.after? d) =
      deadlineAfter now s.perCheckMillis := by
    rw [perCheck_budgets, deadlineAfter]
    by_cases h : s.perCheckMillis = 0
    · rw [if_pos h, if_pos h, Option.bind_none]
    · rw [if_neg h, if_neg h, Option.bind_some, if_neg (mt ofMillis_eq_zero_iff.1 h)]
  have hoverall : (if s.budgets.overall = 0 then none else now.after? s.budgets.overall) =
      deadlineAfter now s.overallMillis := by
    simp only [budgets, deadlineAfter, ofMillis_eq_zero_iff]
  rw [Budgets.deadlines, hoverall, hperCheck, deadlines]

/-- A whole evaluation has to heed the caller's deadline and the one of the section. -/
theorem Health.overallDeadline_budgets (s : Health) (now : Time) (deadline : Option Time) :
    s.budgets.overallDeadline now deadline =
      [deadline, deadlineAfter now s.overallMillis].reduceOption.min? := by
  have hbudgets : s.budgets.overall = .ofMillis s.overallMillis.toNat := rfl
  rw [Budgets.overallDeadline, hbudgets, deadlineAfter]
  simp only [ofMillis_eq_zero_iff]
  split
  · cases deadline <;> rfl
  · cases deadline <;> cases now.after? (.ofMillis s.overallMillis.toNat) <;> rfl

/-! ## Handlers -/

/-- A task that has been started for a check, at some time and with some deadlines to heed. -/
structure Probe.Started (q : Probe) (now : Time) (deadlines : List Time) (t : Task) : Prop where
  name : t.name = q.name
  time : t.started = now
  behaviour : ∃ answer replyWins, t.progress = .running (q.asked.behaviour answer replyWins)
  deadline : t.context.deadline = deadlines.min?

end Config

namespace HealthHandler

/-- **A handler carries out a section on checks**, of which some warnings have been given.

* Every evaluation starts the checks of the section in their order and nothing else, in a context that has
  the deadline of the section, and each in one that has its own deadline as well.
* However an evaluation ends, its tasks are these checks, and the results of its response are theirs.
* Readiness is evaluated for the requests that ask for it, in a context without a deadline, and for no
  others.
* When it is built, the handler warns of the names that have been warned of, and tells what it has got. -/
structure CarriesOut (h : HealthHandler) (s : Config.Health) (warnings : List Entry) : Prop where
  starts : ∀ p parent, ∃ ts, (h.ready.launch p parent).tasks = p.tasks ++ ts ∧
    List.Forall₂ (fun q t => q.Started p.now (s.deadlines p.now parent.deadline) t) s.checks ts
  bounds : ∀ p parent, (h.ready.derive p parent).2.deadline =
    [parent.deadline, Config.deadlineAfter p.now s.overallMillis].reduceOption.min?
  reports : ∀ parent st v st' entries, h.ready.Ends parent st v st' entries →
    (st'.pool.tasks.drop st.pool.tasks.length).map Task.name = s.checks.map Config.Probe.name ∧
    ∀ x, v = .response x → x.checks.map CheckResult.name = s.checks.map Config.Probe.name
  evaluates : ∀ call st, routeOf call.request = .ready → st.pool.contexts.background.2.deadline = none ∧
    ∃ v entries took,
      h.ready.Ends st.pool.contexts.background.2 (entered st) v (h.handle call st).2 entries ∧
      (h.handle call st).1 = replyReady call.request v entries took
  idle : ∀ call st, routeOf call.request ≠ .ready → (h.handle call st).2 = st
  warns : ∃ names : List String, warnings = names.map Config.duplicateWarning ∧
    buildEntries h.ready = names.map (fun name => ⟨.duplicateChecker name, []⟩) ++
      [⟨.handlerConfigured s.checks.length (.ofMillis s.overallMillis.toNat)
        (if s.perCheckMillis = 0 then none else some (.ofMillis s.perCheckMillis.toNat)), []⟩]

/-- A request for readiness is replied with what an evaluation comes to. -/
theorem ends_handle {h : HealthHandler} {call : Call} {st : HealthState}
    (hroute : routeOf call.request = .ready) :
    ∃ v entries took,
      h.ready.Ends st.pool.contexts.background.2 (entered st) v (h.handle call st).2 entries ∧
      (h.handle call st).1 = replyReady call.request v entries took := by
  have hends := h.ready.ends_evaluate st.pool.contexts.background.2 call.limit (entered st)
  rw [handle_of_ready hroute]
  exact ⟨_, _, _, hends, rfl⟩

end HealthHandler

/-! ## That a handler carries it out -/

namespace Readiness

variable {r : Readiness} {p : Pool} {parent : Context} {h h' : HealthState} {v : Verdict}
  {entries : List Entry} {s : Config.Health}

/-- A response bears the names of the checks that it is about. -/
theorem names_of_response {m : Metrics} {ts : List Task} {x : ReadyResponse}
    (hended : ∀ t ∈ ts, (∃ payload, t.progress = .panicked payload) ∨
      ∃ result elapsed, t.progress = .returned result elapsed ∧ result.name = t.name)
    (hx : (r.conclude m ts).1 = .response x) : x.checks.map CheckResult.name = ts.map Task.name := by
  -- with a panic among the tasks there would be no response
  have hcalm : ∀ t ∈ ts, t.progress.result? ≠ none := by
    refine collect_eq_none_iff.1 ?_
    cases hpanic : (collect ts).2 with
    | none => rfl
    | some payload =>
      simp only [conclude, hpanic] at hx
      cases hx
  obtain ⟨y, hy, hlisted, -⟩ := r.conclude_of_results m hcalm
  obtain rfl := Verdict.response.inj (hy.symm.trans hx)
  have hname : ∀ t ∈ ts, t.progress.result?.map CheckResult.name = some t.name := by
    intro t ht
    rcases hended t ht with ⟨payload, hp⟩ | ⟨result, elapsed, hp, hname⟩
    · exact absurd (by rw [hp]; rfl) (hcalm t ht)
    · rw [hp]
      exact congrArg some hname
  have hsome : (y.checks.map CheckResult.name).map some = (ts.map Task.name).map some :=
    calc (y.checks.map CheckResult.name).map some
      _ = (y.checks.map some).map (Option.map CheckResult.name) := by
        rw [List.map_map, List.map_map]
        rfl
      _ = ts.map fun t => t.progress.result?.map CheckResult.name := by
        rw [hlisted, List.map_map]
        rfl
      _ = ts.map fun t => some t.name := List.map_congr_left hname
      _ = (ts.map Task.name).map some := by
        rw [List.map_map]
        rfl
  exact List.map_injective_iff.2 (Option.some_injective String) hsome

/-- However an evaluation ends, its tasks and the results of its response bear the names of its
checkers. -/
theorem names_of_ends (he : r.Ends parent h v h' entries) :
    (h'.pool.tasks.drop h.pool.tasks.length).map Task.name = r.names ∧
      ∀ x, v = .response x → x.checks.map CheckResult.name = r.names := by
  cases he with
  | @dropped q hq => exact ⟨names_of_passes (q := q) hq, fun x hx => nomatch hx⟩
  | @concluded q hq hend =>
    refine ⟨names_of_passes (q := q) hq, fun x hx => ?_⟩
    rw [← names_of_passes hq]
    exact names_of_response (fun t => ended_of_passes hq hend) hx

section

variable (hchecks : List.Forall₂ (fun q c => q.asked.Checks c) s.checks r.checkers)

include hchecks in
theorem names_of_checks : r.names = s.checks.map Config.Probe.name := by
  rw [names, ← List.forall₂_eq_eq_eq, List.forall₂_map_left_iff, List.forall₂_map_right_iff]
  refine hchecks.flip.imp ?_
  rintro c q ⟨answer, replyWins, rfl⟩
  rfl

include hchecks in
/-- **An evaluation starts the configured checks in their order.** -/
theorem starts_checks (hbudgets : r.budgets = s.budgets) (p : Pool) (parent : Context) :
    ∃ ts, (r.launch p parent).tasks = p.tasks ++ ts ∧
      List.Forall₂ (fun q t => q.Started p.now (s.deadlines p.now parent.deadline) t) s.checks ts := by
  -- the new tasks are those of the checkers, place by place
  refine ⟨_, congrArg Pool.tasks (r.launch_eq p parent), ?_⟩
  rw [List.forall₂_iff_get]
  refine ⟨by rw [hchecks.length_eq, List.length_mapIdx], fun i hq ht => ?_⟩
  obtain ⟨answer, replyWins, hc⟩ := hchecks.get hq (by rwa [← hchecks.length_eq])
  simp only [List.get_eq_getElem, List.getElem_mapIdx] at hc ⊢
  rw [hc]
  refine ⟨rfl, rfl, ⟨answer, replyWins, rfl⟩, ?_⟩
  rw [← s.deadlines_budgets, ← hbudgets]
  exact checkDeadline_eq_min _ _ _

end
end Readiness

namespace Config

open HealthHandler

/-- What a handler tells of its checks when it is built. -/
theorem Health.buildEntries_eq {s : Health} {r : Readiness}
    (hchecks : List.Forall₂ (fun q c => q.asked.Checks c) s.checks r.checkers)
    (hbudgets : r.budgets = s.budgets) : buildEntries r =
      (repeated [] (s.checks.map Probe.name)).map (fun name => ⟨.duplicateChecker name, []⟩) ++
        [⟨.handlerConfigured s.checks.length (.ofMillis s.overallMillis.toNat)
          (if s.perCheckMillis = 0 then none else some (.ofMillis s.perCheckMillis.toNat)), []⟩] := by
  rw [buildEntries, duplicates_eq_repeated, Readiness.names_of_checks hchecks, hbudgets,
    s.perCheck_budgets, ← hchecks.length_eq]
  rfl

/-- **The handler of an accepted configuration carries out what the configuration says.**

* Its probes can be made just if each expected status is a status code; otherwise the first check is told
  for which that fails, and the status that it expects.
* Whatever becomes of the probes' requests, a handler with these probes carries out the section on checks,
  and warns of the names of which validation has warned.
* A number of milliseconds sets the deadline that it says, unless it is zero, as long as the clock is not
  near its end. -/
theorem carried_out {markup : Markup} {text : List Char} {c : Config} {warnings : List Entry}
    (hparse : parse markup text = (.ok c, warnings)) :
    ((∃ ps, c.health.probes = .ok ps) ↔ ∀ q ∈ c.health.checks, q.Askable) ∧
    (∀ e, c.health.probes = .error e ↔ c.health.FirstRefused e) ∧
    (∀ ps checkers metered self, c.health.probes = .ok ps → List.Forall₂ HttpProbe.Checks ps checkers →
      (c.handler checkers metered self).CarriesOut c.health warnings) ∧
    ∀ (now : Time) (millis : UInt64), now + Duration.ofMillis 0x10000000000000000 ≤ Time.horizon →
      deadlineAfter now millis =
        if millis = 0 then none else some (now + Duration.ofMillis millis.toNat) := by
  refine ⟨?_, fun e => c.health.probes_eq_error_iff, ?_, fun now millis h => deadlineAfter_eq h millis⟩
  · simp [Health.probes_eq_ok_iff]
  · intro ps checkers metered self hprobes hcheckers
    obtain ⟨-, rfl⟩ := c.health.probes_eq_ok_iff.1 hprobes
    have hchecks : List.Forall₂ (fun q c => q.asked.Checks c) c.health.checks
        (c.handler checkers metered self).ready.checkers := List.forall₂_map_left_iff.1 hcheckers
    have hnames := Readiness.names_of_checks hchecks
    exact {
      starts := Readiness.starts_checks hchecks rfl
      bounds := fun p parent => by
        rw [Readiness.derive_eq]
        exact c.health.overallDeadline_budgets p.now parent.deadline
      reports := fun parent st v st' entries he => hnames ▸ Readiness.names_of_ends he
      evaluates := fun call st hroute => ⟨rfl, ends_handle hroute⟩
      idle := fun call st hroute => (handle_of_not_ready hroute).2.1
      warns := ⟨_, warnings_of_parse hparse, Health.buildEntries_eq hchecks rfl⟩ }

/-- Two checks of one name, with fifty milliseconds for each and no bound on the whole. -/
theorem carried_out_twins :
    let text := ("\x7b\"health\":\x7b\"overall_timeout_ms\":0,\"per_check_timeout_ms\":50," ++
      "\"checks\":[\x7b\"name\":\"a\",\"url\":\"http://h\"\x7d," ++
      "\x7b\"name\":\"a\",\"url\":\"http://i\",\"expected_status\":204\x7d]\x7d\x7d").toList
    let first : Url := { scheme := "http", host := some (.domain "h"), path := .segments [""] }
    let second : Url := { scheme := "http", host := some (.domain "i"), path := .segments [""] }
    let c : Config := { health := {
      overallMillis := 0
      perCheckMillis := 50
      checks := [⟨"a", first, none⟩, ⟨"a", second, some 204⟩] } }
    let probes : List HttpProbe := [⟨"a", first, none⟩, ⟨"a", second, some 204⟩]
    let self : Identity := ⟨"here", 0, ⟨0, 0⟩⟩
    parse .json text = (.ok c, [duplicateWarning "a"]) ∧ c.health.probes = .ok probes ∧
      (c.handler (probes.map (·.checker none false)) false self).CarriesOut c.health
        [duplicateWarning "a"] ∧
      deadlineAfter 7 c.health.overallMillis = none ∧
      deadlineAfter 7 c.health.perCheckMillis = some 50000007 := by
  intro text first second c probes self
  have hread : format.ofJson (Utf8.encode text) = .ok c := by decide +kernel
  have hparse : parse .json text = (.ok c, [duplicateWarning "a"]) := by
    refine parse_eq_ok_iff.2 ⟨?_, by decide +kernel⟩
    rw [read, hread]
  have hprobes : c.health.probes = .ok probes := rfl
  obtain ⟨-, -, hcarries, htime⟩ := carried_out hparse
  refine ⟨hparse, hprobes, hcarries probes _ false self hprobes ?_,
    (htime 7 0 (by decide)).trans (by decide), (htime 7 50 (by decide)).trans (by decide)⟩
  exact .cons ⟨none, false, rfl⟩ (.cons ⟨none, false, rfl⟩ .nil)

end Config
end HealthService
