import HealthService.Proofs.Pool.Limits
import HealthService.Proofs.Pool.Shift
import HealthService.Proofs.Readiness.Endings

/-!
# Evaluations that somebody gives up

Somebody who waits for an evaluation may give up at some time.  If it is over by then, nothing is different;
otherwise it is dropped at that time, and nothing is counted.

* `evaluate_in_time` and `evaluate_late` — **what an evaluation comes to under a limit** is known from what
  it comes to without one.
* `seen_of_limit` — two evaluations that come to the same without a limit come to the same under any.
* `evaluate_afresh` — **an evaluation under a limit is like one of a service that has just been set up**,
  whatever is left over from earlier ones, and whatever contexts there have been.
-/

namespace HealthService.Readiness

open Pool

variable {r : Readiness} {h h' : HealthState} {cs : List Context} {parent parent' : Context}
  {limit : Option Time} {l : Time}

/-! ## The course of an evaluation -/

/-- The pool in which the run of an evaluation ends. -/
def course (r : Readiness) (parent : Context) (limit : Option Time) (h : HealthState) : Pool :=
  (r.launch h.pool parent).run (·.hasEndedFrom h.pool.tasks.length) limit

/-- Whether all checks of an evaluation have ended at the end of its run. -/
def isOver (r : Readiness) (parent : Context) (limit : Option Time) (h : HealthState) : Bool :=
  (r.course parent limit h).hasEndedFrom h.pool.tasks.length

theorem evaluate_of_over (hover : r.isOver parent limit h = true) :
    r.evaluate parent limit h =
      let told := r.conclude h.metrics ((r.course parent limit h).tasks.drop h.pool.tasks.length)
      (told.1, ⟨left h (r.course parent limit h), told.2.1⟩, told.2.2) := by
  rw [evaluate_eq]
  exact if_pos hover

theorem evaluate_of_open (hopen : r.isOver parent limit h = false) :
    r.evaluate parent limit h =
      (.abandoned, ⟨left h (r.course parent limit h), h.metrics⟩, []) := by
  rw [evaluate_eq]
  apply if_neg
  rw [Bool.not_eq_true]
  exact hopen

/-- The clock of an evaluation is that of its run. -/
theorem now_evaluate (r : Readiness) (parent : Context) (limit : Option Time) (h : HealthState) :
    (r.evaluate parent limit h).2.1.pool.now = (r.course parent limit h).now := by
  cases hover : r.isOver parent limit h with
  | true => rw [evaluate_of_over hover]; rfl
  | false => rw [evaluate_of_open hover]; rfl

/-- Who concludes an evaluation has not dropped it. -/
theorem conclude_ne_abandoned (r : Readiness) (m : Metrics) (ts : List Task) :
    (r.conclude m ts).1 ≠ .abandoned := by
  unfold conclude
  dsimp only
  split <;> simp

theorem abandoned_iff : (r.evaluate parent limit h).1 = .abandoned ↔ r.isOver parent limit h = false := by
  cases hover : r.isOver parent limit h with
  | true => simp [evaluate_of_over hover, conclude_ne_abandoned]
  | false => simp [evaluate_of_open hover]

/-! ## Limits -/

/-- **An evaluation that is over in time is the one without a limit.** -/
theorem evaluate_in_time (hover : (r.evaluate parent none h).1 ≠ .abandoned)
    (hle : (r.evaluate parent none h).2.1.pool.now ≤ h.pool.now.wakeUp l) :
    r.evaluate parent (some l) h = r.evaluate parent none h := by
  rw [Ne, abandoned_iff, Bool.not_eq_false] at hover
  rw [now_evaluate] at hle
  have hcourse : r.course parent (some l) h = r.course parent none h := by
    apply run_of_enough_in_time hover
    rw [now_launch]
    exact hle
  have hover' : r.isOver parent (some l) h = true := by rwa [isOver, hcourse]
  rw [evaluate_of_over hover, evaluate_of_over hover', hcourse]

/-- **Any other evaluation is dropped at the limit**, and nothing is counted. -/
theorem evaluate_late (hlate : (r.evaluate parent none h).1 ≠ .abandoned →
      h.pool.now.wakeUp l < (r.evaluate parent none h).2.1.pool.now) :
    (r.evaluate parent (some l) h).1 = .abandoned ∧ (r.evaluate parent (some l) h).2.2 = [] ∧
      (r.evaluate parent (some l) h).2.1.metrics = h.metrics ∧
      (r.evaluate parent (some l) h).2.1.pool.now = h.pool.now.wakeUp l := by
  rw [Ne, abandoned_iff, Bool.not_eq_false, now_evaluate] at hlate
  obtain ⟨hopen, hnow⟩ : r.isOver parent (some l) h = false ∧
      (r.course parent (some l) h).now = (r.launch h.pool parent).now.wakeUp l := by
    apply run_of_late (·.hasEndedFrom h.pool.tasks.length) (fun _ _ => rfl)
    rw [now_launch]
    exact hlate
  rw [now_launch] at hnow
  rw [evaluate_of_open hopen]
  exact ⟨rfl, rfl, rfl, hnow⟩

/-- What anybody gets to see of an evaluation: its verdict, what is counted and logged, and the time. -/
def seen (x : Verdict × HealthState × List Entry) : Verdict × Metrics × List Entry × Time :=
  (x.1, x.2.1.metrics, x.2.2, x.2.1.pool.now)

/-- **Evaluations that come to the same without a limit come to the same under any.** -/
theorem seen_of_limit
    (hopen : (r.evaluate parent none h).1 = .abandoned ↔ (r.evaluate parent' none h').1 = .abandoned)
    (hseen : (r.evaluate parent none h).1 ≠ .abandoned →
      seen (r.evaluate parent none h) = seen (r.evaluate parent' none h'))
    (hnow : h.pool.now = h'.pool.now) (hmetrics : h.metrics = h'.metrics) (l : Time) :
    seen (r.evaluate parent (some l) h) = seen (r.evaluate parent' (some l) h') := by
  by_cases hin : (r.evaluate parent none h).1 ≠ .abandoned ∧
      (r.evaluate parent none h).2.1.pool.now ≤ h.pool.now.wakeUp l
  · obtain ⟨hover, hle⟩ := hin
    have hsame := hseen hover
    have htime : (r.evaluate parent none h).2.1.pool.now = (r.evaluate parent' none h').2.1.pool.now :=
      congrArg (fun x => x.2.2.2) hsame
    rw [evaluate_in_time hover hle, hsame, evaluate_in_time (mt hopen.2 hover) (by rwa [← htime, ← hnow])]
  · have hlate : (r.evaluate parent none h).1 ≠ .abandoned →
        h.pool.now.wakeUp l < (r.evaluate parent none h).2.1.pool.now := by
      intro hover
      by_contra hle
      exact hin ⟨hover, not_lt.1 hle⟩
    have hlate' : (r.evaluate parent' none h').1 ≠ .abandoned →
        h'.pool.now.wakeUp l < (r.evaluate parent' none h').2.1.pool.now := by
      intro hover
      have htime : (r.evaluate parent none h).2.1.pool.now = (r.evaluate parent' none h').2.1.pool.now :=
        congrArg (fun x => x.2.2.2) (hseen (mt hopen.1 hover))
      rw [← hnow, ← htime]
      exact hlate (mt hopen.1 hover)
    obtain ⟨hverdict, hentries, hcounted, htime⟩ := evaluate_late hlate
    obtain ⟨hverdict', hentries', hcounted', htime'⟩ := evaluate_late hlate'
    rw [seen, seen, hverdict, hentries, hcounted, htime, hverdict', hentries', hcounted', htime', hnow,
      hmetrics]

/-! ## A service that has just been set up -/

/-- Nothing but the tasks of an evaluation and the clock can be seen of it. -/
theorem seen_congr {limit' : Option Time}
    (hover : r.isOver parent limit h = r.isOver parent' limit' h')
    (hprogress : ((r.course parent limit h).tasks.drop h.pool.tasks.length).map Task.progress =
      ((r.course parent' limit' h').tasks.drop h'.pool.tasks.length).map Task.progress)
    (hnow : (r.course parent limit h).now = (r.course parent' limit' h').now)
    (hmetrics : h.metrics = h'.metrics) :
    seen (r.evaluate parent limit h) = seen (r.evaluate parent' limit' h') := by
  have htime : (left h (r.course parent limit h)).now = (left h' (r.course parent' limit' h')).now := hnow
  cases hover' : r.isOver parent' limit' h' with
  | true =>
    rw [evaluate_of_over (hover.trans hover'), evaluate_of_over hover']
    simp only [seen, conclude, collect_congr hprogress, hmetrics, htime]
  | false =>
    rw [evaluate_of_open (hover.trans hover'), evaluate_of_open hover', seen, seen, htime, hmetrics]

/-- What has been counted before makes no difference to what an evaluation comes to. -/
theorem evaluate_metrics (r : Readiness) (parent : Context) (limit : Option Time) (p : Pool)
    (m m' : Metrics) :
    (r.evaluate parent limit ⟨p, m⟩).1 = (r.evaluate parent limit ⟨p, m'⟩).1 ∧
      (r.evaluate parent limit ⟨p, m⟩).2.2 = (r.evaluate parent limit ⟨p, m'⟩).2.2 ∧
      (r.evaluate parent limit ⟨p, m⟩).2.1.pool = (r.evaluate parent limit ⟨p, m'⟩).2.1.pool := by
  rw [evaluate_eq, evaluate_eq]
  dsimp only
  split
  · obtain ⟨hverdict, hentries⟩ := r.conclude_congr m m' _
    exact ⟨hverdict, hentries, rfl⟩
  · exact ⟨rfl, rfl, rfl⟩

/-- What is left over from earlier evaluations makes no difference to one under a limit. -/
theorem seen_fresh (hp : h.pool.Apart cs) (hparent : parent ∈ cs) (l : Time) :
    seen (r.evaluate parent (some l) h) =
      seen (r.evaluate parent (some l) ⟨h.fresh.pool, h.metrics⟩) := by
  have hlen : (r.launch h.pool parent).tasks.length =
      h.pool.tasks.length + (r.launch h.fresh.pool parent).tasks.length := by
    rw [launch_eq, launch_eq]
    simp [HealthState.fresh]
  obtain ⟨hsame, htasks⟩ := (mirrors_fresh (r := r) hp hparent).run hlen
  have hover : r.isOver parent none h = r.isOver parent none ⟨h.fresh.pool, h.metrics⟩ := hsame
  apply seen_of_limit
  · rw [abandoned_iff, abandoned_iff, hover]
  · intro hend
    rw [Ne, abandoned_iff, Bool.not_eq_false, hover] at hend
    obtain ⟨htasks, hnow⟩ := htasks hend
    apply seen_congr hover (congrArg (List.map Task.progress) htasks) hnow
    rfl
  · rfl
  · rfl

theorem hasEndedFrom_behind (ds : Contexts) (p : Pool) (n : Nat) :
    (p.behind ds).hasEndedFrom n = p.hasEndedFrom n := by
  have hended : Task.hasEnded ∘ Task.shift ds.nodes.length = Task.hasEnded := rfl
  rw [hasEndedFrom, behind, ← List.map_drop, List.all_map, hended]
  rfl

/-- Contexts that there have been before make no difference to an evaluation. -/
theorem seen_behind {ds : Contexts} (hwf : ds.WellFormed) (parent : Context) (limit : Option Time)
    (p : Pool) (m : Metrics) :
    seen (r.evaluate (parent.shift ds.nodes.length) limit ⟨p.behind ds, m⟩) =
      seen (r.evaluate parent limit ⟨p, m⟩) := by
  have hlen : (p.behind ds).tasks.length = p.tasks.length := List.length_map _
  have hcourse : r.course (parent.shift ds.nodes.length) limit ⟨p.behind ds, m⟩ =
      (r.course parent limit ⟨p, m⟩).behind ds := by
    rw [course, launch_behind, hlen]
    exact run_behind hwf (fun q => hasEndedFrom_behind ds q _) limit _
  apply seen_congr
  · rw [isOver, isOver, hcourse, hlen]
    exact hasEndedFrom_behind ds _ _
  · rw [hcourse, hlen]
    simp [behind, ← List.map_drop, Task.shift]
  · rw [hcourse]
    rfl
  · rfl

/-- **An evaluation under a limit is like one of a service that has just been set up**, at the same time
and with the same metrics. -/
theorem evaluate_afresh {s : HealthState} (hs : Served s cs) (hplans : s.pool.plans = []) (l : Time) :
    seen (r.evaluate s.pool.contexts.background.2 (some l)
        { s with pool := { s.pool with contexts := s.pool.contexts.background.1 } }) =
      seen (r.evaluate ({} : Contexts).background.2 (some l)
        ⟨{ now := s.pool.now, contexts := ({} : Contexts).background.1 }, s.metrics⟩) := by
  have hwf := (apart_of_served hs).wellFormed
  have hsame := seen_behind (r := r) hwf ({} : Contexts).background.2 (some l)
    { now := s.pool.now, contexts := ({} : Contexts).background.1 } s.metrics
  rw [seen_fresh (apart_of_served (.background hs)) List.mem_cons_self, ← hsame]
  simp [HealthState.fresh, behind, hplans, Contexts.background, Contexts.behind, Context.shift,
    Contexts.Node.shift]

end HealthService.Readiness
