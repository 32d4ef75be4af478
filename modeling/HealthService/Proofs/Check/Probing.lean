import HealthService.Check.HttpProbe
import HealthService.Proofs.Check.Delay
import HealthService.Proofs.Readiness.Waiting

/-!
# Probes

A probe waits for a reply, which comes at any time, with an eye on its context, and reports. Its context is
looked at twice: by the probe, which may notice its end at a tick only and, when a reply has come as well,
leaves it to chance which of them counts; and after the report, when nobody is in order any more whose context
has ended.

* `Race` — a check that waits for something or for the end of its context, and then reports; `Race.Stage` is
  what may have become of it.
* `Race.Runs.stage` — **whatever happens in a pool, a race is at one of its stages**.
* `Race.Runs.ends_at_once` — **when the race is over, no time passes until the result is there**.
* `Race.Runs.now_le` — **the race is over as soon as it can be**: no time is missed.
* `HttpProbe.concluded` — **what the result of a probe says**, in any order of events, and that it does not
  depend on chance whether it is in order.
-/

namespace HealthService

open Pool

/-! ## Races -/

/-- A check that waits for something, if it is ever due, or for the end of its context, and then reports. -/
structure Race where
  due : Option Time
  wins : Bool
  report : CheckOutcome
  onEnd : ContextError → CheckOutcome

namespace Race

/-- What the check does. -/
def behaviour (r : Race) : Behaviour :=
  .race r.due r.wins (.finish r.report) fun e => .finish (r.onEnd e)

/-- There is nothing to wait for any more. -/
def Over (r : Race) (own : Context) (n : Pool) : Prop :=
  (∃ d ∈ r.due, d ≤ n.now) ∨ n.contexts.awaited? own n.now ≠ none

/-- What the check is going to report if it stops waiting now. -/
def Decides (r : Race) (own : Context) (m : Pool) (o : CheckOutcome) : Prop :=
  Task.raceEnd (r.due.any (· ≤ m.now)) (m.contexts.awaited? own m.now) r.wins (.finish r.report)
    (fun e => .finish (r.onEnd e)) = some (.finish o)

/-- The check is about to begin at some place of a pool: it looks at the clock first, or not even that. -/
structure Runs (r : Race) (p : Pool) (k : Nat) (t : Task) : Prop where
  task : p.tasks[k]? = some t
  started : t.started = p.now
  begins : t.progress = .running r.behaviour ∨ ∃ next, t.progress = .running (.look next) ∧
    ∀ v : View, v.now = p.now → next v = r.behaviour

/-- What may have become of the check: `p` is the pool in which it began and `n` the one as it is now. -/
inductive Stage (r : Race) (p : Pool) (k : Nat) (t : Task) (n : Pool) : Progress → Prop where
  | looking {next : View → Behaviour} (hnow : n.now = p.now)
      (hnext : ∀ v : View, v.now = p.now → next v = r.behaviour) : Stage r p k t n (.running (.look next))
  | waiting : Stage r p k t n (.running r.behaviour)
  /-- It has stopped waiting in `m`, and no time has passed since. -/
  | decided {m : Pool} {o : CheckOutcome} (hm : Passes p m)
      (hstops : Advances k t (.running r.behaviour) m (.running (.finish o)) n) (hnow : n.now = m.now) :
      Stage r p k t n (.running (.finish o))
  /-- It has stopped waiting in `m`, and has returned in `f` at the same instant. -/
  | returned {m f : Pool} {o : CheckOutcome} {result : CheckResult} {elapsed : Duration} (hm : Passes p m)
      (hstops : Advances k t (.running r.behaviour) m (.running (.finish o)) f) (hnow : f.now = m.now)
      (hreturns : Advances k t (.running (.finish o)) f (.returned result elapsed) n) :
      Stage r p k t n (.returned result elapsed)

variable {r : Race} {p q n m : Pool} {k : Nat} {t : Task} {g : Progress} {own : Context} {o : CheckOutcome}

/-- A check that stops waiting is going to report what the race has decided. -/
theorem decides_of_advances (h : Advances k t (.running r.behaviour) m (.running (.finish o)) n) :
    r.Decides t.context m o := by
  obtain ⟨s, hs, hfinish, -⟩ := h.step
  obtain ⟨next, hnext, rfl⟩ := Option.map_eq_some_iff.1 hs
  obtain rfl := Progress.running.inj hfinish
  exact hnext

/-- **How a race ends**: with what was due, with the end of the context, or, when both have come, by chance. -/
theorem decides_cases (h : r.Decides own m o) :
    (r.due.any (· ≤ m.now) = true ∧ m.contexts.awaited? own m.now = none ∧ o = r.report) ∨
    ∃ e, m.contexts.awaited? own m.now = some e ∧
      (r.due.any (· ≤ m.now) = false ∧ o = r.onEnd e ∨
        r.due.any (· ≤ m.now) = true ∧ (o = r.report ∨ o = r.onEnd e)) := by
  have hfinish {a : CheckOutcome} (heq : Behaviour.finish o = .finish a) : o = a := Behaviour.finish.inj heq
  obtain ⟨hcome, hnone, hnext⟩ | ⟨e, hended, hnext⟩ := Task.raceEnd_eq_some h
  · exact Or.inl ⟨hcome, hnone, hfinish hnext⟩
  · exact Or.inr ⟨e, hended, hnext.imp (And.imp id hfinish) (And.imp id (Or.imp hfinish hfinish))⟩

theorem any_le_iff {d : Option Time} {now : Time} : d.any (· ≤ now) = true ↔ ∃ x ∈ d, x ≤ now := by
  rw [Option.any_eq_true]
  exact exists_congr fun x => and_congr_right fun _ => decide_eq_true_iff

theorem over_of_decides (h : r.Decides own m o) : r.Over own m := by
  rcases decides_cases h with ⟨hcome, -, -⟩ | ⟨e, he, -⟩
  · exact Or.inl (any_le_iff.1 hcome)
  · exact Or.inr (by rw [he]; exact nofun)

/-- A race that is over stays so while no time passes. -/
theorem Over.goes (h : r.Over own n) (hg : Goes n q) (hnow : q.now = n.now) : r.Over own q := by
  unfold Over at h ⊢
  rw [hnow]
  refine h.imp id fun hended => ?_
  rw [Ne, Task.awaited?_eq_none_iff] at hended ⊢
  rintro ⟨hcanceled, hdeadline⟩
  refine hended ⟨Bool.eq_false_iff.2 fun hc => ?_, hdeadline⟩
  rw [isCanceled_goes hg hc] at hcanceled
  cases hcanceled

/-- A race that is over can go on. -/
theorem step?_ne_none (hp : t.progress = .running r.behaviour) (hover : r.Over t.context n) :
    t.step? n.contexts n.now ≠ none := by
  intro hnone
  obtain ⟨hnot, hcanceled, hdeadline⟩ := (Task.step?_race hp).1 hnone
  rcases hover with ⟨d, hd, hcome⟩ | hended
  · exact (hnot d hd).not_ge hcome
  · exact hended ((Task.awaited?_eq_none_iff _).2 ⟨hcanceled, hdeadline⟩)

/-- What has come is reported, if the context has not ended. -/
theorem step?_of_come {ds : Contexts} {now : Time} (hp : t.progress = .running r.behaviour)
    (hcome : ∃ d ∈ r.due, d ≤ now) (hopen : ds.awaited? t.context now = none) :
    t.step? ds now = some { contexts := ds, progress := .running (.finish r.report) } := by
  rw [Task.step?, hp]
  simp only [behaviour, any_le_iff.2 hcome, hopen]
  rfl

namespace Stage

/-- Nothing becomes of the check while others take their steps. -/
theorem stays (h : r.Stage p k t n g) (hg : Goes n q) (hnow : q.now = n.now) : r.Stage p k t q g := by
  cases h with
  | looking hn hnext => exact .looking (hnow.trans hn) hnext
  | waiting => exact .waiting
  | decided hm hstops hsame => exact .decided hm (hstops.tail hg) (hnow.trans hsame)
  | returned hm hstops hsame hreturns => exact .returned hm hstops hsame (hreturns.tail hg)

/-- Time passes only while the check waits, or after it has returned. -/
theorem idle (h : r.Stage p k t n g) (hk : n.tasks[k]? = some { t with progress := g })
    (hidle : n.step? = none) (hg : Goes n q) : r.Stage p k t q g := by
  have hblocked := (step?_eq_none_iff.1 hidle).2 _ (List.mem_of_getElem? hk)
  cases h with
  | looking => cases hblocked
  | waiting => exact .waiting
  | decided => cases hblocked
  | returned hm hstops hsame hreturns => exact .returned hm hstops hsame (hreturns.tail hg)

/-- **One step** of the check leads to its next stage. -/
theorem step {s : Task.Step} (h : r.Stage p k t n g) (hn : Passes p n)
    (hk : n.tasks[k]? = some { t with progress := g })
    (hs : Task.step? { t with progress := g } n.contexts n.now = some s) :
    r.Stage p k t (n.put k { t with progress := g } s) s.progress := by
  have hstep : Advances k t g n s.progress (n.put k { t with progress := g } s) := ⟨hk, s, hs, rfl, .refl⟩
  cases h with
  | looking hnow hnext =>
    cases hs
    rw [show Progress.running _ = Progress.running r.behaviour from congrArg _ (hnext _ hnow)]
    exact .waiting
  | waiting =>
    obtain ⟨next, hnext, rfl⟩ := Option.map_eq_some_iff.1 hs
    obtain ⟨o, rfl⟩ := finish_of_raceEnd hnext
    exact .decided hn hstep rfl
  | decided hm hstops hnow =>
    cases hs
    exact .returned hm hstops hnow hstep
  | returned => cases hs

/-- **No time passes** while the race is over and the check has not returned. -/
theorem instant (h : r.Stage p k t n g) (hk : n.tasks[k]? = some { t with progress := g })
    (hover : r.Over t.context n) (hlive : Task.hasEnded { t with progress := g } = false) (hg : Goes n q) :
    q.now = n.now := by
  refine (now_goes hg).resolve_right fun hidle => ?_
  have hblocked := (step?_eq_none_iff.1 hidle).2 _ (List.mem_of_getElem? hk)
  cases h with
  | looking => cases hblocked
  | waiting => exact step?_ne_none (t := { t with progress := _ }) rfl hover hblocked
  | decided => cases hblocked
  | returned => cases hlive

/-- A step of the check returns, or else it goes on. -/
theorem step_live {s : Task.Step} (h : r.Stage p k t n g)
    (hs : Task.step? { t with progress := g } n.contexts n.now = some s) :
    Task.hasEnded { t with progress := s.progress } = false ∨
      ∃ result, s.progress = .returned result (n.now - t.started) := by
  cases h with
  | looking =>
    cases hs
    exact Or.inl rfl
  | waiting =>
    obtain ⟨next, -, rfl⟩ := Option.map_eq_some_iff.1 hs
    exact Or.inl rfl
  | decided =>
    cases hs
    exact Or.inr ⟨_, rfl⟩
  | returned => cases hs

end Stage

/-- **Whatever happens in a pool, a race is at one of its stages.** -/
theorem Runs.stage (h : r.Runs p k t) (hq : Passes p q) :
    ∃ g, q.tasks[k]? = some { t with progress := g } ∧ r.Stage p k t q g := by
  induction hq with
  | refl =>
    refine ⟨t.progress, h.task, ?_⟩
    rcases h.begins with hp | ⟨next, hp, hnext⟩
    · rw [hp]
      exact .waiting
    · rw [hp]
      exact .looking rfl hnext
  | tail hn hg ih =>
    obtain ⟨g, hk, hstage⟩ := ih
    rcases task_goes hg hk with hstay | ⟨s, hs, rfl⟩
    · refine ⟨g, hstay, ?_⟩
      rcases now_goes hg with hnow | hidle
      · exact hstage.stays hg hnow
      · exact hstage.idle hk hidle hg
    · exact ⟨s.progress, getElem?_put hk s, hstage.step hn hk hs⟩

/-- **When the race is over, no time passes until the result is there.** -/
theorem Runs.ends_at_once (h : r.Runs p k t) (hn : Passes p n) (hover : r.Over t.context n) {u : Task}
    (hu : n.tasks[k]? = some u) (hlive : u.hasEnded = false) (hq : Passes n q) :
    (q.now = n.now ∧ r.Over t.context q ∧ ∃ v, q.tasks[k]? = some v ∧ v.hasEnded = false) ∨
      ∃ v result, q.tasks[k]? = some v ∧ v.progress = .returned result (n.now - t.started) := by
  induction hq with
  | refl => exact Or.inl ⟨rfl, hover, u, hu, hlive⟩
  | @tail m q hm hg ih =>
    rcases ih with ⟨hnow, hover, v, hv, hlive⟩ | ⟨v, result, hv, hreturned⟩
    · obtain ⟨g, hk, hstage⟩ := h.stage (hn.trans hm)
      obtain rfl := Option.some.inj (hv.symm.trans hk)
      have hgoes := hstage.instant hk hover hlive hg
      have hover' := hover.goes hg hgoes
      rcases task_goes hg hk with hstay | ⟨s, hs, rfl⟩
      · exact Or.inl ⟨hgoes.trans hnow, hover', _, hstay, hlive⟩
      · have hput := getElem?_put hk s
        rcases hstage.step_live hs with hlive' | ⟨result, hreturned⟩
        · exact Or.inl ⟨hgoes.trans hnow, hover', _, hput, hlive'⟩
        · exact Or.inr ⟨_, result, hput, by rw [← hnow]; exact hreturned⟩
    · have hended : v.hasEnded = true := by rw [Task.hasEnded, hreturned]
      exact Or.inr ⟨v, result, task_of_ended (.single hg) hv hended, hreturned⟩

/-- **What has returned** has stopped waiting at the same instant. -/
theorem Runs.returned (h : r.Runs p k t) (hq : Passes p q) {u : Task} (hu : q.tasks[k]? = some u)
    {result : CheckResult} {elapsed : Duration} (hreturned : u.progress = .returned result elapsed) :
    ∃ m f o, Passes p m ∧ Advances k t (.running r.behaviour) m (.running (.finish o)) f ∧
      Advances k t (.running (.finish o)) f (.returned result elapsed) q ∧
      f.now = m.now ∧ p.now + elapsed = m.now := by
  obtain ⟨g, hk, hstage⟩ := h.stage hq
  obtain rfl := Option.some.inj (hu.symm.trans hk)
  dsimp only at hreturned
  subst hreturned
  cases hstage with
  | @returned m f o _ _ hm hstops hnow hreturns =>
    refine ⟨m, f, o, hm, hstops, hreturns, hnow, ?_⟩
    obtain ⟨s, hs, hs', -⟩ := hreturns.step
    obtain ⟨-, -, -, helapsed, -⟩ := Task.step?_returned hs hs'
    rw [helapsed, h.started, hnow]
    exact Nat.add_sub_cancel' (now_passes hm)

/-- **It returns as soon as the race is over.** -/
theorem Runs.prompt (h : r.Runs p k t) (hn : Passes p n) (hover : r.Over t.context n) (hq : Passes n q)
    {u : Task} (hu : q.tasks[k]? = some u) {result : CheckResult} {elapsed : Duration}
    (hreturned : u.progress = .returned result elapsed) : p.now + elapsed ≤ n.now := by
  obtain ⟨g, hk, hstage⟩ := h.stage hn
  have hended : u.hasEnded = true := by rw [Task.hasEnded, hreturned]
  cases hlive : Task.hasEnded { t with progress := g } with
  | false =>
    rcases h.ends_at_once hn hover hk hlive hq with ⟨-, -, v, hv, hv'⟩ | ⟨v, result', hv, hv'⟩
    · obtain rfl := Option.some.inj (hv.symm.trans hu)
      rw [hended] at hv'
      cases hv'
    · obtain rfl := Option.some.inj (hv.symm.trans hu)
      obtain ⟨-, rfl⟩ := Progress.returned.inj (hv'.symm.trans hreturned)
      rw [h.started]
      exact (Nat.add_sub_cancel' (now_passes hn)).le
  | true =>
    -- it has returned already
    obtain rfl := Option.some.inj ((task_of_ended hq hk hlive).symm.trans hu)
    obtain ⟨m, f, o, -, -, hreturns, hnow, hinstant⟩ := h.returned hn hk hreturned
    rw [hinstant, ← hnow]
    exact now_passes hreturns.passes

/-- **The race is over as soon as it can be**: while the check has not ended, the clock does not go on past
the time at which something is due, or at which the end of the context is noticed. -/
theorem Runs.now_le (h : r.Runs p k t) (hq : Passes p q) {u : Task} (hu : q.tasks[k]? = some u)
    (hlive : u.hasEnded = false) :
    (∀ d ∈ r.due, q.now ≤ max p.now d) ∧ ∀ d ∈ t.context.deadline, q.now ≤ p.now.wakeUp d := by
  have hwaits : ∀ m v, Passes p m → m.tasks[k]? = some v → v.hasEnded = false →
      v.step? m.contexts m.now = none → v.wakeUp? m.now =
        Contexts.earlier (r.due.map (max m.now)) (t.context.deadline.map m.now.wakeUp) := by
    intro m v hm hv hlive hblocked
    obtain ⟨g, hk, hstage⟩ := h.stage hm
    obtain rfl := Option.some.inj (hk.symm.trans hv)
    cases hstage with
    | looking => cases hblocked
    | waiting => rfl
    | decided => cases hblocked
    | returned => cases hlive
  have hle {x : Time} (hx : ∀ s : Time,
      max s x ∈ r.due.map (max s) ∨ max s x ∈ t.context.deadline.map s.wakeUp) : q.now ≤ max p.now x := by
    refine now_le_of_waits (fun m v hm hv hlive hblocked => ?_) hq hu hlive
    rw [hwaits m v hm hv hlive hblocked]
    exact Contexts.exists_earlier_le (hx m.now)
  constructor
  · exact fun d hd => hle fun s => Or.inl (Option.mem_map_of_mem _ hd)
  · exact fun d hd => hle fun s => Or.inr (Option.mem_map_of_mem _ hd)

/-- **A race comes to its end** in every run that waits for it, if something is due some time or the context
has a deadline. -/
theorem Runs.returns (h : r.Runs p k t) (hsome : r.due ≠ none ∨ t.context.deadline ≠ none) :
    ∃ u result elapsed, (p.run (·.hasEndedFrom k) none).tasks[k]? = some u ∧
      u.progress = .returned result elapsed := by
  obtain ⟨g, hk, hstage⟩ := h.stage (run_passes (·.hasEndedFrom k) none p)
  have hended : Task.hasEnded { t with progress := g } = true := by
    rcases (run_reaches (·.hasEndedFrom k) p).2 with henough | ⟨hidle, hnext⟩
    · exact hasEnded_of_hasEndedFrom henough le_rfl hk
    · have hmem := List.mem_of_getElem? hk
      have hblocked := (step?_eq_none_iff.1 hidle).2 _ hmem
      cases hstage with
      | looking => cases hblocked
      | waiting =>
        obtain ⟨hdue, hdeadline⟩ := Contexts.earlier_eq_none ((next?_eq_none hnext).1 _ hmem)
        exact (hsome.elim (absurd (Option.map_eq_none_iff.1 hdue))
          (absurd (Option.map_eq_none_iff.1 hdeadline)))
      | decided => cases hblocked
      | returned => rfl
  cases hstage with
  | returned => exact ⟨_, _, _, hk, rfl⟩
  | _ => cases hended

end Race

/-! ## Probes -/

namespace HttpProbe

variable {probe : HttpProbe} {answer : Option (Duration × Reply)} {wins : Bool} {start now : Time}

/-- The status codes that a probe is content with. -/
def Wants (probe : HttpProbe) (code : Nat) : Prop :=
  match probe.expected with
  | some expected => code = expected
  | none => 200 ≤ code ∧ code ≤ 299

theorem accepts_iff (code : Nat) : probe.accepts code = true ↔ probe.Wants code := by
  unfold accepts Wants
  cases probe.expected with
  | some expected => exact decide_eq_true_iff
  | none => rw [Bool.and_eq_true, decide_eq_true_iff, decide_eq_true_iff]

/-- A reply has come by some time to a probe that began at another one. -/
def Replied (answer : Option (Duration × Reply)) (start now : Time) : Prop :=
  ∃ a ∈ answer, start + a.1 ≤ now

/-- The race between the reply and the end of the context. -/
def race (probe : HttpProbe) (answer : Option (Duration × Reply)) (wins : Bool) (start : Time) : Race where
  due := answer.map fun a => start + a.1
  wins := wins
  report := match answer with
    | some a => probe.report a.2
    | none => ⟨.error, none⟩
  onEnd e := ⟨.error, some e.message⟩

theorem any_due :
    (probe.race answer wins start).due.any (· ≤ now) = true ↔ Replied answer start now := by
  rw [Race.any_le_iff]
  simp only [race, Replied, Option.mem_map, exists_exists_and_eq_and]

theorem over_iff {own : Context} {n : Pool} : (probe.race answer wins start).Over own n ↔
    Replied answer start n.now ∨ n.contexts.awaited? own n.now ≠ none := by
  rw [Race.Over, ← @any_due probe answer wins, Race.any_le_iff]

/-- A probe that is started is such a race. -/
theorem runs (probe : HttpProbe) (answer : Option (Duration × Reply)) (wins : Bool) (p : Pool)
    (ctx : Context) (budget : Option Duration) : let begun := p.start ctx budget (probe.checker answer wins)
    (probe.race answer wins begun.now).Runs begun p.tasks.length
      ((probe.checker answer wins).begun (p.ownContext ctx budget) p.now) := by
  intro begun
  obtain ⟨htasks, hnow⟩ := task_start p ctx budget (probe.checker answer wins)
  refine ⟨?_, hnow.symm, ?_⟩
  · rw [htasks, List.getElem?_append_right le_rfl, Nat.sub_self, List.getElem?_cons_zero]
  · cases answer with
    | none => exact Or.inl rfl
    | some a =>
      refine Or.inr ⟨_, rfl, fun v hv => ?_⟩
      rw [← hv]
      rfl

/-- It is going to report that it is in order just if it is content with the reply. -/
theorem status_report : (probe.race answer wins start).report.status = .ok ↔
    ∃ after code, answer = some (after, .ok code) ∧ probe.Wants code := by
  rcases answer with _ | ⟨after, e | code⟩
  · exact ⟨nofun, fun ⟨_, _, h, _⟩ => nomatch h⟩
  · exact ⟨nofun, fun ⟨_, _, h, _⟩ => nomatch h⟩
  · show (probe.report (.ok code)).status = .ok ↔ _
    rw [report]
    split
    · rename_i haccepts
      exact ⟨fun _ => ⟨after, code, rfl, (accepts_iff code).1 haccepts⟩, fun _ => rfl⟩
    · rename_i hrefuses
      refine ⟨nofun, ?_⟩
      rintro ⟨_, _, ⟨⟩, hwants⟩
      exact absurd ((accepts_iff code).2 hwants) hrefuses

/-- What the result of a probe says that has begun in `p` as a task at some place and has returned by `q`:
it has stopped waiting in `m`, with something to report, and has reported in `f`. -/
structure Concludes (probe : HttpProbe) (answer : Option (Duration × Reply)) (wins : Bool) (p : Pool)
    (k : Nat) (t : Task) (q : Pool) (result : CheckResult) (elapsed : Duration) (m f : Pool)
    (o : CheckOutcome) : Prop where
  begins : Passes p m
  stops : Advances k t (.running (probe.race answer wins p.now).behaviour) m (.running (.finish o)) f
  returns : Advances k t (.running (.finish o)) f (.returned result elapsed) q
  instant : f.now = m.now ∧ p.now + elapsed = m.now
  /-- It stops waiting because a reply has come or the context has ended, ... -/
  cause : Replied answer p.now m.now ∨ m.contexts.awaited? t.context m.now ≠ none
  /-- ... as soon as one of them has happened, ... -/
  prompt : ∀ n, Passes p n → Passes n q →
    Replied answer p.now n.now ∨ n.contexts.awaited? t.context n.now ≠ none → m.now ≤ n.now
  /-- ... and so no later than when the reply comes, ... -/
  by_reply : ∀ a ∈ answer, m.now ≤ p.now + a.1
  /-- ... or the timer of the context's deadline goes off. -/
  by_deadline : ∀ d ∈ t.context.deadline, m.now ≤ p.now.wakeUp d
  ok_iff : result.status = .ok ↔
    (∃ after code, answer = some (after, .ok code) ∧ probe.Wants code) ∧ Replied answer p.now m.now ∧
      m.contexts.error? t.context m.now = none ∧ f.contexts.error? t.context f.now = none
  /-- If the context ends first, the result tells why. -/
  ended : ∀ e, m.contexts.awaited? t.context m.now = some e → ¬ Replied answer p.now m.now →
    m.contexts.error? t.context m.now = some e ∧
      result = ⟨probe.name, .error, some e.message, elapsed.describe⟩
  /-- If it ends together with the reply, chance does not count. -/
  tie : ∀ e, m.contexts.awaited? t.context m.now = some e → result.status = .error

/-- **What a report is judged to be**, if the probe has stopped waiting at the same instant. -/
theorem status_judge {m f : Pool} {own : Context} {o : CheckOutcome} {name : String} {elapsed : Duration}
    (hdecides : (probe.race answer wins start).Decides own m o) (hf : Passes m f) (hnow : f.now = m.now) :
    (o.judge name (f.contexts.error? own f.now) elapsed).1.status = .ok ↔
      (∃ after code, answer = some (after, .ok code) ∧ probe.Wants code) ∧ Replied answer start m.now ∧
        m.contexts.error? own m.now = none ∧ f.contexts.error? own f.now = none := by
  have hjudged := (judged_judge o f.contexts own f.now name elapsed).status_iff
  rw [← Contexts.error?_eq_none_iff] at hjudged
  rw [hjudged, ← @status_report probe answer wins start]
  have hbefore (hnone : f.contexts.error? own f.now = none) : m.contexts.error? own m.now = none := by
    by_contra hsome
    exact error?_passes hf hnow hsome hnone
  have hawaited (hnone : m.contexts.error? own m.now = none) : m.contexts.awaited? own m.now = none := by
    cases hended : m.contexts.awaited? own m.now with
    | none => rfl
    | some e =>
      rw [Contexts.error?_of_awaited? hended] at hnone
      cases hnone
  rcases Race.decides_cases hdecides with ⟨hcome, -, rfl⟩ | ⟨e, hended, -⟩
  · have hreplied := any_due.1 hcome
    constructor
    · exact fun ⟨hok, hnone⟩ => ⟨hok, hreplied, hbefore hnone, hnone⟩
    · exact fun ⟨hok, _, _, hnone⟩ => ⟨hok, hnone⟩
  · constructor
    · rintro ⟨-, hnone⟩
      rw [hawaited (hbefore hnone)] at hended
      cases hended
    · rintro ⟨-, -, hnone, -⟩
      rw [hawaited hnone] at hended
      cases hended

/-- An error is judged to be an error, with its message. -/
theorem judge_error (e : ContextError) (name : String) (error : Option ContextError) (elapsed : Duration) :
    (CheckOutcome.judge ⟨.error, some e.message⟩ name error elapsed).1 =
      ⟨name, .error, some e.message, elapsed.describe⟩ := by
  cases error <;> cases e <;> rfl

theorem concludes_of_returned {p q : Pool} {k : Nat} {t u : Task} {result : CheckResult}
    {elapsed : Duration} (h : (probe.race answer wins p.now).Runs p k t) (hname : t.name = probe.name) (hq : Passes p q)
    (hu : q.tasks[k]? = some u) (hreturned : u.progress = .returned result elapsed) :
    ∃ m f o, Concludes probe answer wins p k t q result elapsed m f o := by
  obtain ⟨m, f, o, hm, hstops, hreturns, hnow, hinstant⟩ := h.returned hq hu hreturned
  have hdecides := Race.decides_of_advances hstops
  -- the result is the judgement on what the probe has decided to report
  have hresult : result = (o.judge t.name (f.contexts.error? t.context f.now) elapsed).1 := by
    obtain ⟨s, hs, hs', -⟩ := hreturns.step
    obtain ⟨o', ho', -, -, hjudge⟩ := Task.step?_returned hs hs'
    obtain rfl := Behaviour.finish.inj (Progress.running.inj ho')
    exact congrArg Prod.fst hjudge
  have hok := @status_judge probe answer wins p.now m f _ o t.name elapsed hdecides hstops.passes hnow
  rw [← hresult] at hok
  obtain ⟨hdue, hdeadline⟩ := h.now_le hm hstops.task rfl
  refine ⟨m, f, o, hm, hstops, hreturns, ⟨hnow, hinstant⟩, over_iff.1 (Race.over_of_decides hdecides),
    fun n hn hnq hover => ?_, fun a ha => ?_, hdeadline, hok, fun e hended hno => ?_, fun e hended => ?_⟩
  · rw [← hinstant]
    exact h.prompt hn (over_iff.2 hover) hnq hu hreturned
  · have hle := hdue _ (Option.mem_map_of_mem _ ha)
    rwa [max_eq_right (Nat.le_add_right p.now a.1)] at hle
  · rcases Race.decides_cases hdecides with ⟨hcome, -, -⟩ | ⟨e', hended', hcases⟩
    · exact absurd (any_due.1 hcome) hno
    · obtain rfl := Option.some.inj (hended.symm.trans hended')
      obtain ⟨-, rfl⟩ := hcases.resolve_right fun htie => hno (any_due.1 htie.1)
      rw [hresult, ← hname]
      exact ⟨Contexts.error?_of_awaited? hended, judge_error e t.name _ elapsed⟩
  · cases hstatus : result.status with
    | error => rfl
    | ok =>
      obtain ⟨-, -, hnone, -⟩ := hok.1 hstatus
      rw [Contexts.error?_of_awaited? hended] at hnone
      cases hnone

/-- **What the result of a probe says.** Whatever else happens in the pool, and in any order: the probe is
in order just if a reply has come that it wants, its context had not ended by then, and has not ended when
it returns. If the context ends first, the result is an error that tells why, at this instant; if both come
at once it is an error as well, whichever of them the probe notices. A probe that is run on its own, and
gets a reply some time or has a deadline, always comes to such a result. -/
theorem concluded (probe : HttpProbe) (answer : Option (Duration × Reply)) (wins : Bool) (p : Pool)
    (ctx : Context) (budget : Option Duration) :
    let begun := p.start ctx budget (probe.checker answer wins)
    let t := (probe.checker answer wins).begun (p.ownContext ctx budget) p.now
    let ran := p.runCheck ctx budget (probe.checker answer wins)
    (∀ q u result elapsed, Passes begun q → q.tasks[p.tasks.length]? = some u →
      u.progress = .returned result elapsed →
        ∃ m f o, Concludes probe answer wins begun p.tasks.length t q result elapsed m f o) ∧
    (answer ≠ none ∨ (p.ownContext ctx budget).deadline ≠ none → ∃ result elapsed, ran.2 = .returned result elapsed ∧
      ∃ m f o, Concludes probe answer wins begun p.tasks.length t ran.1 result elapsed m f o) := by
  intro begun t ran
  have hruns := runs probe answer wins p ctx budget
  constructor
  · exact fun q u result elapsed hq hu hreturned => concludes_of_returned hruns rfl hq hu hreturned
  · intro hsome
    obtain ⟨u, result, elapsed, hu, hreturned⟩ :=
      hruns.returns (hsome.imp (mt Option.map_eq_none_iff.1) id)
    exact ⟨result, elapsed, (congrArg Prod.snd (runCheck_eq hu)).trans hreturned,
      concludes_of_returned hruns rfl (run_passes _ _ _) hu hreturned⟩

/-- A reply that is wanted and comes in time makes a probe be in order, even if it comes in the millisecond of
the deadline; one that comes at the very instant of the deadline comes too late, even if it is noticed first. -/
theorem concluded_in_time_and_at_deadline :
    let url : Url := { scheme := "http", host := some (.domain "db") }
    let p : Pool := { contexts := ({} : Contexts).background.1 }
    let early := HttpProbe.checker ⟨"db", url, some 204⟩ (some (4300000, .ok 204)) false
    let late := HttpProbe.checker ⟨"db", url, none⟩ (some (.ofMillis 5, .ok 200)) true
    (∃ q result m f o, Concludes ⟨"db", url, some 204⟩ (some (4300000, .ok 204)) false
      (p.start ⟨0, some 4600000⟩ none early) 0 (early.begun ⟨0, some 4600000⟩ 0) q result 4300000 m f o ∧
        result.status = .ok) ∧
    ∃ result elapsed, (p.runCheck ⟨0, none⟩ (some (.ofMillis 5)) late).2 = .returned result elapsed ∧
      result.status = .error := by
  intro url p early late
  constructor
  · let race := HttpProbe.race ⟨"db", url, some 204⟩ (some (4300000, .ok 204)) false 0
    let waiting : Pool := {
      contexts := p.contexts
      tasks := [⟨"db", ⟨0, some 4600000⟩, 0, .running race.behaviour⟩] }
    have hbegun :=
      (runs ⟨"db", url, some 204⟩ (some (4300000, .ok 204)) false p ⟨0, some 4600000⟩ none).task
    have hlooks : Goes (p.start ⟨0, some 4600000⟩ none early) waiting := .moves (moves_put hbegun rfl)
    have hopen : ∀ now, Time.hasFired now 4600000 = false →
        p.contexts.awaited? ⟨0, some 4600000⟩ now = none := fun now hnot =>
      (Task.awaited?_eq_none_iff _).2 ⟨rfl, fun x hx => by obtain rfl := Option.some.inj hx; exact hnot⟩
    have hidle : waiting.step? = none := by
      refine step?_eq_none_iff.2 ⟨nofun, fun t ht => ?_⟩
      rw [List.mem_singleton.1 ht]
      refine (Task.step?_race rfl).2 ⟨fun x hx => ?_, (Task.awaited?_eq_none_iff _).1 (hopen 0 (by decide))⟩
      obtain rfl := Option.some.inj hx
      exact (by decide : 0 < 0 + 4300000)
    have hpasses : Goes waiting (waiting.atTime 4300000) := .moves (.time hidle rfl)
    have hwaits : (waiting.atTime 4300000).tasks[0]? = some ⟨"db", ⟨0, some 4600000⟩, 0, _⟩ := rfl
    have hstops := Goes.moves (moves_put hwaits
      (Race.step?_of_come (r := race) rfl ⟨_, rfl, le_rfl⟩ (hopen 4300000 (by decide))))
    have hreports := getElem?_put hwaits { contexts := p.contexts, progress := .running (.finish race.report) }
    have hreturns := Goes.moves (moves_put hreports rfl)
    obtain ⟨m, f, o, h⟩ :=
      (concluded ⟨"db", url, some 204⟩ (some (4300000, .ok 204)) false p ⟨0, some 4600000⟩ none).1 _ _ _ _
        ((((Relation.ReflTransGen.single hlooks).tail hpasses).tail hstops).tail hreturns)
        (getElem?_put hreports _) rfl
    exact ⟨_, _, m, f, o, h, rfl⟩
  · obtain ⟨result, elapsed, hreturned, m, f, o, h⟩ :=
      (concluded ⟨"db", url, none⟩ (some (.ofMillis 5, .ok 200)) true p ⟨0, none⟩
        (some (.ofMillis 5))).2 (Or.inl nofun)
    refine ⟨result, elapsed, hreturned, ?_⟩
    cases hstatus : result.status with
    | error => rfl
    | ok =>
      obtain ⟨-, ⟨a, ha, hcome⟩, hnone, -⟩ := h.ok_iff.1 hstatus
      obtain rfl := Option.some.inj ha
      have hdeadline : (p.ownContext ⟨0, none⟩ (some (.ofMillis 5))).deadline =
          some (Duration.ofMillis 5) := by decide
      have hlate : Duration.ofMillis 5 ≤ m.now := (Nat.zero_add (Duration.ofMillis 5)).symm.trans_le hcome
      exact absurd ⟨_, hdeadline, hlate⟩ ((Contexts.error?_eq_none_iff _ _ _).1 hnone).2

end HttpProbe
end HealthService
