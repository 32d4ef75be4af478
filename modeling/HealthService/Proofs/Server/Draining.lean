import HealthService.Proofs.Check.Steps
import HealthService.Server.Shutdown
import Mathlib.Order.Bounds.Basic

/-!
# Shutting down in time

When a server is told to stop, what becomes of it is settled by the requests that it is answering: by when
each of them will have been answered, and whether that is soon enough.  Nothing that comes later matters.

* `ServerRun.ending_append` — letting requests end by one time and then by a later one is letting them end
  by the later one.
* `ServerRun.Drained` — what holds of a run at any time after the signal, in terms of the run at the
  signal; `Drained.advance` and `Drained.react` are the steps, `drained_after` is the run.
* `ServerRun.shuts_down` — **the server stops when the last request in flight has been answered, or it gives
  up at the deadline**; it does neither without a signal.
-/

namespace HealthService

/-- Whether an occurrence is the arrival of a request. -/
def Occurrence.isRequest : Occurrence → Bool
  | .request .. => true
  | _ => false

namespace ServerRun

variable {r s : ServerRun} {t u : Time}

/-! ## Requests that end -/

/-- The end of an exchange, if it comes by some time. -/
def endOf (t : Time) (e : Exchange) : Option (Nat × Time) :=
  e.ends.bind fun u => if u ≤ t then some (e.id, u) else none

theorem endsBy_iff {e : Exchange} : endsBy t e = true ↔ ∃ u, e.ends = some u ∧ u ≤ t := by
  simp [endsBy, Option.any_eq_true]

theorem endsBy_mono {e : Exchange} (h : t ≤ u) (he : endsBy t e = true) : endsBy u e = true := by
  obtain ⟨x, hends, hle⟩ := endsBy_iff.1 he
  exact endsBy_iff.2 ⟨x, hends, hle.trans h⟩

theorem endOf_eq_none {e : Exchange} (he : endsBy t e = false) : endOf t e = none := by
  cases h : e.ends with
  | none => rw [endOf, h]; rfl
  | some x =>
    have hlt : ¬x ≤ t := by simpa [endsBy, h] using he
    rw [endOf, h, Option.bind_some, if_neg hlt]

theorem endOf_of_endsBy {e : Exchange} (he : endsBy t e = true) :
    endOf t e = some (e.id, e.ends.getD t) := by
  obtain ⟨x, hends, hle⟩ := endsBy_iff.1 he
  rw [endOf, hends, Option.bind_some, if_pos hle, Option.getD_some]

/-- What ends by some time has its end then and at any later time. -/
theorem endOf_eq_of_le {e : Exchange} (h : t ≤ u) (he : endsBy t e = true) :
    endOf t e = endOf u e := by
  obtain ⟨x, hends, -⟩ := endsBy_iff.1 he
  rw [endOf_of_endsBy he, endOf_of_endsBy (endsBy_mono h he), hends, Option.getD_some, Option.getD_some]

/-- The ends of exchanges by some time, whatever their order. -/
theorem ending_perm (r : ServerRun) (t : Time) :
    (r.ending t).Perm (r.inFlight.filterMap (endOf t)) := by
  refine (List.mergeSort_perm _ _).trans (.of_eq ?_)
  induction r.inFlight with
  | nil => rfl
  | cons e es ih =>
    cases he : endsBy t e with
    | false => rw [List.filter_cons_of_neg (by simp [he]), List.filterMap_cons_none (endOf_eq_none he), ih]
    | true =>
      rw [List.filter_cons_of_pos he, List.map_cons, List.filterMap_cons_some (endOf_of_endsBy he), ih]

/-- The requests that are left at some time. -/
def left (r : ServerRun) (t : Time) : List Exchange := r.inFlight.filter fun e => !endsBy t e

/-- **Letting requests end by one time and then by a later one is letting them end by the later one.** -/
theorem ending_append (h : t ≤ u) (hs : s.inFlight = r.left t) :
    (r.ending t ++ s.ending u).Perm (r.ending u) := by
  refine ((r.ending_perm t).append (s.ending_perm u)).trans (.trans ?_ (r.ending_perm u).symm)
  rw [hs, left]
  induction r.inFlight with
  | nil => exact .nil
  | cons e es ih =>
    cases he : endsBy t e with
    | true =>
      rw [List.filter_cons_of_neg (by simp [he]), List.filterMap_cons, List.filterMap_cons (f := endOf u),
        ← endOf_eq_of_le h he, endOf_of_endsBy he]
      exact ih.cons _
    | false =>
      rw [List.filter_cons_of_pos (by simp [he]), List.filterMap_cons_none (endOf_eq_none he),
        List.filterMap_cons, List.filterMap_cons (l := es)]
      cases endOf u e with
      | none => exact ih
      | some x => exact List.perm_middle.trans (ih.cons x)

theorem left_left (h : t ≤ u) (hs : s.inFlight = r.left t) : s.left u = r.left u := by
  rw [left, hs, left, left, List.filter_filter]
  refine List.filter_congr fun e _ => ?_
  cases he : endsBy t e with
  | false => simp
  | true => simp [endsBy_mono h he]

/-- The times, from now on, by which all requests in flight have ended. -/
def finishTimes (r : ServerRun) : Set Time := {t | r.now ≤ t ∧ ∀ e ∈ r.inFlight, endsBy t e = true}

theorem mem_finishTimes_iff : t ∈ r.finishTimes ↔ r.now ≤ t ∧ r.left t = [] := by
  rw [finishTimes, Set.mem_ofPred_eq, left, List.filter_eq_nil_iff]
  simp

theorem finishTimes_mono (h : t ∈ r.finishTimes) (hle : t ≤ u) : u ∈ r.finishTimes :=
  ⟨h.1.trans hle, fun e he => endsBy_mono hle (h.2 e he)⟩

theorem lastEnd_le_iff {ended : List (Nat × Time)} :
    r.lastEnd ended ≤ t ↔ r.now ≤ t ∧ ∀ x ∈ ended, x.2 ≤ t := by
  rw [lastEnd]
  induction ended generalizing r with
  | nil => simp
  | cons x xs ih =>
    rw [List.foldl_cons, List.forall_mem_cons, ← and_assoc, ← max_le_iff]
    exact ih (r := { r with now := max r.now x.2 })

theorem mem_ending {x : Nat × Time} :
    x ∈ r.ending t ↔ ∃ e ∈ r.inFlight, e.id = x.1 ∧ e.ends = some x.2 ∧ x.2 ≤ t := by
  rw [(r.ending_perm t).mem_iff, List.mem_filterMap]
  refine exists_congr fun e => and_congr_right fun _ => ?_
  rw [endOf, Option.bind_eq_some_iff]
  refine ⟨fun ⟨u, hu, h⟩ => ?_, fun ⟨hid, hends, hle⟩ => ⟨x.2, hends, by rw [if_pos hle, hid]⟩⟩
  split at h
  · obtain rfl := Option.some.inj h
    exact ⟨rfl, hu, ‹_›⟩
  · cases h

/-- Once all requests have ended, the last end is the first time by which they have. -/
theorem mem_finishTimes_iff_lastEnd_le (h : u ∈ r.finishTimes) :
    t ∈ r.finishTimes ↔ r.lastEnd (r.ending u) ≤ t := by
  rw [lastEnd_le_iff]
  refine and_congr_right fun _ => ⟨fun hall x hx => ?_, fun hall e he => ?_⟩
  · obtain ⟨e, he, -, hends, -⟩ := mem_ending.1 hx
    simpa [endsBy, hends] using hall e he
  · obtain ⟨x, hends, hle⟩ := endsBy_iff.1 (h.2 e he)
    exact endsBy_iff.2 ⟨x, hends, hall (e.id, x) (mem_ending.2 ⟨e, he, rfl, hends, hle⟩)⟩

/-- When all requests have ended, no further ones do. -/
theorem ending_of_finished (h : t ∈ r.finishTimes) (hle : t ≤ u) :
    (r.ending t).Perm (r.ending u) := by
  have hnone : (r.complete t).ending u = [] := by
    have hleft : (r.complete t).inFlight = [] := (mem_finishTimes_iff.1 h).2
    rw [ending, hleft, List.filter_nil, List.map_nil, List.mergeSort_nil]
  have happend := ending_append hle (s := r.complete t) (r := r) rfl
  rwa [hnone, List.append_nil] at happend

/-! ## Requests that go on -/

/-- A run that goes on with what another one has left: from now on requests end in it as in the other
one, where they have not all ended before. -/
structure Continues (r s : ServerRun) : Prop where
  left : ∀ u, s.now ≤ u → s.left u = r.left u
  answered : ∀ u, s.now ≤ u → (s.answered ++ s.ending u).Perm (r.answered ++ r.ending u)
  finishes : ∀ u, u ∈ s.finishTimes ↔ u ∈ r.finishTimes

/-- What goes on with a run still does so when further requests have ended, unless those were the
last. -/
theorem Continues.complete (h : Continues r s) (hle : s.now ≤ t) (hne : s.left t ≠ []) :
    Continues r (s.complete t) where
  left u hu := by
    rw [← h.left u (hle.trans hu)]
    exact left_left hu (s := s.complete t) rfl
  answered u hu := by
    refine .trans ?_ (h.answered u (hle.trans hu))
    show (s.answered ++ s.ending t ++ (s.complete t).ending u).Perm _
    rw [List.append_assoc]
    exact (ending_append hu rfl).append_left _
  finishes u := by
    rw [← h.finishes, mem_finishTimes_iff]
    constructor
    · rintro ⟨hu, hleft⟩
      rw [left_left hu (s := s.complete t) rfl] at hleft
      exact mem_finishTimes_iff.2 ⟨hle.trans hu, hleft⟩
    · intro hmem
      have hu : t ≤ u := by
        by_contra hlt
        exact hne (mem_finishTimes_iff.1 (finishTimes_mono hmem (not_le.1 hlt).le)).2
      refine ⟨hu, ?_⟩
      rw [left_left hu (s := s.complete t) rfl]
      exact (mem_finishTimes_iff.1 hmem).2

/-! ## After the signal -/

/-- When a server gives up that is told to stop now. -/
def deadline (r : ServerRun) (timeout : Duration) : Time := r.now.wakeUp (r.now.sleepUntil timeout)

/-- What has become of a run that was told to stop: it still waits, or it has stopped, or it has given
up. -/
inductive Waited (timeout : Duration) (r s : ServerRun) : Prop
  | draining (hphase : s.phase = .draining (r.deadline timeout)) (hnow : s.now < r.deadline timeout)
      (hleft : s.left s.now ≠ []) (h : Continues r s)
  | stopped {last : Time} (hphase : s.phase = .stopped last) (hle : last ≤ s.now)
      (htime : last ≤ r.deadline timeout) (hlast : ∀ t, t ∈ r.finishTimes ↔ last ≤ t)
  | failed (hphase : s.phase = .failed (r.deadline timeout) (.drain timeout))
      (hle : r.deadline timeout ≤ s.now) (hopen : r.deadline timeout ∉ r.finishTimes)

/-- What holds of a run at any time after the signal, in terms of the run at the signal. -/
structure Drained (timeout : Duration) (r s : ServerRun) : Prop where
  answered : s.answered.Perm (r.answered ++ r.ending (min s.now (r.deadline timeout)))
  waited : Waited timeout r s

variable {timeout : Duration}

@[simp] theorem advance_now : (s.advance timeout t).now = t := by
  cases hphase : s.phase with
  | draining d =>
    rw [advance, hphase]
    dsimp only
    split
    · rfl
    · split
      · rfl
      · exact min_eq_left (not_le.1 ‹_›).le
  | serving => rw [advance, hphase]; rfl
  | stopped => rw [advance, hphase]
  | failed => rw [advance, hphase]

/-- **Time passes for a server that waits**: it stops, or gives up, or goes on waiting. -/
theorem Continues.advance (h : Continues r s) (hphase : s.phase = .draining (r.deadline timeout))
    (hdeadline : s.now ≤ r.deadline timeout) (hle : s.now ≤ t) :
    Drained timeout r (s.advance timeout t) := by
  have htime : s.now ≤ min t (r.deadline timeout) := le_min hle hdeadline
  have hcases : s.advance timeout t =
      if s.left (min t (r.deadline timeout)) = [] then
        { (s.complete (min t (r.deadline timeout))).stopAt
          (s.lastEnd (s.ending (min t (r.deadline timeout)))) with now := t }
      else if r.deadline timeout ≤ t then
        { s.complete (min t (r.deadline timeout)) with
          now := t, phase := .failed (r.deadline timeout) (.drain timeout) }
      else s.complete (min t (r.deadline timeout)) := by
    rw [ServerRun.advance, hphase]
    rfl
  have hanswered : (s.advance timeout t).answered =
      s.answered ++ s.ending (min t (r.deadline timeout)) := by
    rw [hcases]
    split_ifs <;> rfl
  refine ⟨?_, ?_⟩
  · rw [hanswered, advance_now]
    exact h.answered _ htime
  rw [hcases]
  split_ifs with hleft hlate
  · have hfinished := mem_finishTimes_iff.2 ⟨htime, hleft⟩
    have hlast := (mem_finishTimes_iff_lastEnd_le hfinished).1 hfinished
    exact .stopped rfl (hlast.trans (min_le_left _ _)) (hlast.trans (min_le_right _ _)) fun u => by
      rw [← h.finishes, mem_finishTimes_iff_lastEnd_le hfinished]
  · rw [min_eq_right hlate] at hleft
    exact .failed rfl hlate fun hmem => hleft (mem_finishTimes_iff.1 ((h.finishes _).2 hmem)).2
  · have hearly := not_le.1 hlate
    rw [min_eq_left hearly.le] at hleft ⊢
    refine .draining hphase hearly ?_ (h.complete hle hleft)
    show (s.complete t).left t ≠ []
    rwa [left_left le_rfl (s := s.complete t) rfl]

/-- **Time passes after the signal.** -/
theorem Drained.advance (h : Drained timeout r s) (hle : s.now ≤ t) :
    Drained timeout r (s.advance timeout t) := by
  cases h.waited with
  | draining hphase hnow _ hcontinues => exact hcontinues.advance hphase hnow.le hle
  | stopped hphase hlast htime hfinish =>
    have hadvance : s.advance timeout t = { s with now := t } := by rw [ServerRun.advance, hphase]
    have hfinished := (hfinish (min s.now (r.deadline timeout))).2 (le_min hlast htime)
    rw [hadvance]
    exact ⟨h.answered.trans ((ending_of_finished hfinished (min_le_min_right _ hle)).append_left _),
      .stopped hphase (hlast.trans hle) htime hfinish⟩
  | failed hphase hlate hopen =>
    have hadvance : s.advance timeout t = { s with now := t } := by rw [ServerRun.advance, hphase]
    have hanswered := h.answered
    rw [min_eq_right hlate, ← min_eq_right (hlate.trans hle)] at hanswered
    rw [hadvance]
    exact ⟨hanswered, .failed hphase (hlate.trans hle) hopen⟩

/-! ## Occurrences -/

theorem react_request (h : s.phase ≠ .serving) (id : Nat) (needs : Option Duration) :
    s.react timeout (.request id needs) = s := by
  rw [ServerRun.react]
  split
  · exact absurd ‹_› h
  · rfl

theorem react_stop (h : s.phase ≠ .serving) : s.react timeout .stop = s := by
  rw [ServerRun.react]
  split
  · exact absurd ‹_› h
  · rfl

/-- A run does not begin to serve again. -/
theorem react_phase_ne (h : s.phase ≠ .serving) (o : Occurrence) :
    (s.react timeout o).phase ≠ .serving := by
  cases o with
  | request id needs => rwa [react_request h]
  | stop => rwa [react_stop h]
  | breakdown reason =>
    rw [ServerRun.react]
    split <;> simp_all
  | pass d =>
    rw [ServerRun.react, ServerRun.advance]
    split
    · exact absurd ‹_› h
    · dsimp only
      split_ifs
      · simp [stopAt]
      · simp
      · exact h
    · exact h

/-- **Requests that come when a run serves no more change nothing.** -/
theorem after_ignores_requests (h : s.phase ≠ .serving) (os : List Occurrence) :
    s.after timeout os = s.after timeout (os.filter fun o => !o.isRequest) := by
  induction os generalizing s with
  | nil => rfl
  | cons o os ih =>
    cases o with
    | request id needs =>
      rw [List.filter_cons_of_neg (by simp [Occurrence.isRequest]), ← ih h]
      show (s.react timeout (.request id needs)).after timeout os = _
      rw [react_request h]
    | _ => exact ih (react_phase_ne h _)

/-- How much time passes in all. -/
def elapsed : List Occurrence → Duration
  | [] => 0
  | .pass d :: os => d + elapsed os
  | _ :: os => elapsed os

theorem after_now (os : List Occurrence) : (s.after timeout os).now = s.now + elapsed os := by
  induction os generalizing s with
  | nil => rfl
  | cons o os ih =>
    show ((s.react timeout o).after timeout os).now = _
    rw [ih]
    cases o with
    | pass d =>
      show (s.advance timeout (s.now + d)).now + elapsed os = s.now + (d + elapsed os)
      rw [advance_now, Nat.add_assoc]
    | request id needs | stop | breakdown reason =>
      show (s.react timeout _).now + elapsed os = s.now + elapsed os
      rw [ServerRun.react]
      split <;> simp [begin, drain]

/-- **While nobody tells it to stop and nothing breaks down, a server goes on serving.** -/
theorem after_serving (h : s.phase = .serving) {os : List Occurrence} (hstop : .stop ∉ os)
    (hsound : ∀ reason, .breakdown reason ∉ os) : (s.after timeout os).phase = .serving := by
  induction os generalizing s with
  | nil => exact h
  | cons o os ih =>
    rw [List.mem_cons, not_or] at hstop
    have hreact : (s.react timeout o).phase = .serving := by
      cases o with
      | pass d =>
        rw [ServerRun.react, ServerRun.advance, h]
        exact h
      | request id needs =>
        rw [ServerRun.react, h]
        show ((s.begin id needs).advance timeout s.now).phase = _
        have hbegin : (s.begin id needs).phase = .serving := h
        rw [ServerRun.advance, hbegin]
        exact h
      | stop => exact absurd rfl hstop.1
      | breakdown reason => exact absurd List.mem_cons_self (hsound reason)
    exact ih hreact hstop.2 fun reason hmem => hsound reason (List.mem_cons_of_mem _ hmem)

/-! ## From the signal on -/

/-- A run does not serve requests any more after the signal. -/
theorem Drained.phase_ne (h : Drained timeout r s) : s.phase ≠ .serving := by
  cases h.waited with
  | draining hphase | stopped hphase | failed hphase => rw [hphase]; simp

/-- What comes after the signal, but for a breakdown, is that time passes. -/
theorem Drained.react (h : Drained timeout r s) {o : Occurrence} (ho : ∀ reason, o ≠ .breakdown reason) :
    Drained timeout r (s.react timeout o) := by
  cases o with
  | pass d => exact h.advance (Nat.le_add_right _ _)
  | request id needs => rwa [react_request h.phase_ne]
  | stop => rwa [react_stop h.phase_ne]
  | breakdown reason => exact absurd rfl (ho reason)

theorem Drained.after (h : Drained timeout r s) {os : List Occurrence}
    (hsound : ∀ reason, .breakdown reason ∉ os) : Drained timeout r (s.after timeout os) := by
  induction os generalizing s with
  | nil => exact h
  | cons o os ih =>
    refine ih (h.react fun reason ho => hsound reason ?_) fun reason hmem =>
      hsound reason (List.mem_cons_of_mem _ hmem)
    exact ho ▸ List.mem_cons_self

/-- **The signal settles what becomes of a run.** -/
theorem drained_after (h : r.phase = .serving) {os : List Occurrence}
    (hsound : ∀ reason, .breakdown reason ∉ os) :
    Drained timeout r (r.after timeout (.stop :: os)) := by
  have hcontinues : Continues r (r.drain timeout) :=
    ⟨fun _ _ => rfl, fun _ _ => .rfl, fun _ => .rfl⟩
  have hstop : r.react timeout .stop = (r.drain timeout).advance timeout r.now := by
    rw [ServerRun.react, h]
  have hdrained : Drained timeout r (r.react timeout .stop) := by
    rw [hstop]
    exact hcontinues.advance rfl (Time.le_wakeUp _ _) le_rfl
  exact hdrained.after hsound

/-- The result of a run in which all requests end in time. -/
theorem Drained.result?_of_finished (h : Drained timeout r s) {last : Time}
    (hlast : IsLeast r.finishTimes last) (htime : last ≤ r.deadline timeout) :
    s.result? = if last ≤ s.now then some (last, .ok ()) else none := by
  cases h.waited with
  | draining hphase _ hleft hcontinues =>
    have hlate : ¬last ≤ s.now := fun hle =>
      hleft (mem_finishTimes_iff.1 ((hcontinues.finishes _).2 (finishTimes_mono hlast.1 hle))).2
    rw [if_neg hlate, result?, hphase]
  | stopped hphase hle _ hfirst =>
    obtain rfl := hlast.unique ⟨(hfirst _).2 le_rfl, fun t ht => (hfirst t).1 ht⟩
    rw [if_pos hle, result?, hphase]
  | failed _ _ hopen => exact absurd (finishTimes_mono hlast.1 htime) hopen

/-- The result of a run in which some request does not end in time. -/
theorem Drained.result?_of_open (h : Drained timeout r s) (hopen : r.deadline timeout ∉ r.finishTimes) :
    s.result? = if r.deadline timeout ≤ s.now then
      some (r.deadline timeout, .error (.drain timeout)) else none := by
  cases h.waited with
  | draining hphase hnow => rw [if_neg (not_le.2 hnow), result?, hphase]
  | stopped _ _ htime hfirst => exact absurd ((hfirst _).2 htime) hopen
  | failed hphase hle => rw [if_pos hle, result?, hphase]

/-- **How a server shuts down**, from any run that serves on.

* Without a signal it goes on serving, unless it breaks down.
* Requests that come after the signal change nothing, so they are not served.
* Each of the requests in flight that ends by the deadline is answered at its end, and nobody else is.
* If all end by the deadline, the server stops when the last of them ends.
* If one does not, the server gives up at the deadline, and not before.

The deadline is the tick of the timer for the shutdown timeout. -/
theorem shuts_down (timeout : Duration) {r : ServerRun} (hserving : r.phase = .serving) :
    (∀ os, .stop ∉ os → (∀ reason, .breakdown reason ∉ os) → (r.after timeout os).result? = none) ∧
    (∀ os, r.after timeout (.stop :: os) =
      r.after timeout (.stop :: os.filter fun o => !o.isRequest)) ∧
    (∀ os, (∀ reason, .breakdown reason ∉ os) →
      let deadline := r.deadline timeout
      let s := r.after timeout (.stop :: os)
      s.now = r.now + elapsed os ∧
      s.answered.Perm (r.answered ++ r.ending (min s.now deadline)) ∧
      (∀ last, IsLeast r.finishTimes last → last ≤ deadline →
        s.result? = if last ≤ s.now then some (last, .ok ()) else none) ∧
      (deadline ∉ r.finishTimes →
        s.result? = if deadline ≤ s.now then some (deadline, .error (.drain timeout)) else none)) ∧
    (r.now + timeout < Time.horizon → r.now + timeout ≤ r.deadline timeout ∧
      (r.now % Duration.perMilli = 0 → timeout % Duration.perMilli = 0 →
        r.deadline timeout = r.now + timeout)) := by
  refine ⟨fun os hstop hsound => ?_, fun os => ?_, fun os hsound => ?_, Time.wakeUp_sleepUntil⟩
  · rw [result?, after_serving hserving hstop hsound]
  · have hstopped : (r.react timeout .stop).phase ≠ .serving :=
      (drained_after hserving fun _ => List.not_mem_nil).phase_ne
    exact after_ignores_requests hstopped os
  · have hdrained : Drained timeout r (r.after timeout (.stop :: os)) := drained_after hserving hsound
    exact ⟨after_now (.stop :: os), hdrained.answered, fun last => hdrained.result?_of_finished,
      hdrained.result?_of_open⟩

/-- Two requests are in flight that need another 400 ms and another 1500 ms, and a third one comes after
the signal.  With a timeout of two seconds both are answered and the server stops with the second; with a
timeout of one second it gives up after that second. -/
theorem shuts_down_with_two :
    let r : ServerRun := { inFlight := [⟨1, some 400000000⟩, ⟨2, some 1500000000⟩] }
    let os := [.pass (.ofMillis 100), .request 3 (some 0), .pass (.ofSeconds 3)]
    let long := r.after (.ofSeconds 2) (.stop :: os)
    long.answered.Perm [(1, 400000000), (2, 1500000000)] ∧
      long.result? = some (1500000000, .ok ()) ∧
      (r.after (.ofSeconds 1) (.stop :: os)).result? = some (1000000000, .error (.drain (.ofSeconds 1))) := by
  intro r os long
  have hends : ∀ t, t ∈ r.finishTimes ↔ 1500000000 ≤ t := fun t => by
    show 0 ≤ t ∧ (∀ e ∈ ([⟨1, some 400000000⟩, ⟨2, some 1500000000⟩] : List Exchange), endsBy t e) ↔ _
    simp only [List.forall_mem_cons, endsBy, Option.any_some, decide_eq_true_iff]
    grind
  have hsound : ∀ reason, .breakdown reason ∉ os := by simp [os]
  obtain ⟨-, hanswered, hstops, -⟩ := (shuts_down (.ofSeconds 2) (r := r) rfl).2.2.1 os hsound
  obtain ⟨-, -, -, hgivesUp⟩ := (shuts_down (.ofSeconds 1) (r := r) rfl).2.2.1 os hsound
  refine ⟨hanswered.trans ((r.ending_perm _).trans ?_),
    (hstops 1500000000 ⟨(hends _).2 le_rfl, fun t => (hends t).1⟩ ?_).trans ?_,
    (hgivesUp (mt (hends _).1 ?_)).trans ?_⟩
  all_goals decide +kernel

end ServerRun

end HealthService
