import HealthService.Server.Connection
import Mathlib.Data.List.Pairwise

/-!
# Silent connections

A connection keeps only the deadline of one timer, for both directions and all operations.  Whatever the
operations come to, that deadline is always the time of the last traffic plus the timeout, so a
connection is known by the time since which it has been silent (`Connection.silentSince`).

* `Connection.perform_eq` — what an operation does, for all operations at once.
* `Connection.perform_silentSince` — one operation restarts the silence if and only if it moves a byte.
* `Connection.after_new` — after any operations, a connection has been silent since the last of them that
  moved a byte, or since its beginning.
* `Connection.gives_up_when_silent` — **an operation is given up exactly if it would have to wait and the
  connection has been silent for the timeout**; else its result is that of the stream below.
-/

namespace HealthService

namespace Operation

/-- Whether it is a read or a write that would have to wait. -/
def waits : Operation → Bool
  | .read .pending => true
  | .write .pending => true
  | .writeVectored .pending => true
  | _ => false

/-- The number of bytes that have moved.  A read may fail after some, whereas a write that fails has
written none. -/
def moved : Operation → Nat
  | .read (.done b) => b.length
  | .read (.failed _ n) => n
  | .write (.done n) => n
  | .writeVectored (.done n) => n
  | _ => 0

/-- The same operation, but given up because of the silence if it is a read or a write. -/
def timedOut : Operation → Operation
  | .read _ => .read (.failed .timedOut 0)
  | .write _ => .write (.failed .timedOut 0)
  | .writeVectored _ => .writeVectored (.failed .timedOut 0)
  | op => op

end Operation

/-- The last traffic of a connection with some operations: the latest of them that moved a byte, or the
connection's beginning. -/
def lastTraffic (start : Time) (calls : List (Time × Operation)) : Time :=
  calls.foldl (fun last x => if 0 < x.2.moved then max last x.1 else last) start

namespace Connection

variable {remote : Endpoint} {idleTimeout : Duration} {start last now : Time}

/-- The connection after some operations. -/
def after (c : Connection) (calls : List (Time × Operation)) : Connection :=
  calls.foldl (fun c x => (c.perform x.1 x.2).2.1) c

/-- A connection that has been silent since some time. -/
def silentSince (remote : Endpoint) (idleTimeout : Duration) (last : Time) : Connection where
  remote := remote
  idleTimeout := idleTimeout
  deadline := if idleTimeout = 0 then none else some (last + idleTimeout)

/-! ## One operation -/

/-- **What an operation does**: one that would have to wait is given up if the silence has lasted too
long; another has the result of the stream below, and restarts the silence if it moved a byte. -/
theorem perform_eq (c : Connection) (now : Time) (op : Operation) :
    c.perform now op =
      if op.waits then
        if c.hasExpired now then (op.timedOut, c, [⟨.idleClosed c.remote.print c.idleTimeout, []⟩])
        else (op, c, [])
      else (op, if 0 < op.moved then c.touch now else c, []) := by
  have hidle : ∀ {α : Type}, c.orIdle (α := α) now =
      if c.hasExpired now then (.failed .timedOut 0, [⟨.idleClosed c.remote.print c.idleTimeout, []⟩])
      else (.pending, []) := rfl
  cases op with
  | read below =>
    cases below with
    | done b => cases b <;> rfl
    | failed e n => cases n <;> rfl
    | pending =>
      simp only [perform, read, hidle]
      cases c.hasExpired now <;> rfl
  | write below =>
    cases below with
    | done n => cases n <;> rfl
    | failed e n => rfl
    | pending =>
      simp only [perform, write, hidle]
      cases c.hasExpired now <;> rfl
  | writeVectored below =>
    cases below with
    | done n => cases n <;> rfl
    | failed e n => rfl
    | pending =>
      simp only [perform, write, hidle]
      cases c.hasExpired now <;> rfl
  | flush below => rfl
  | shutdown below => rfl

theorem new_eq_silentSince (h : idleTimeout = 0 ∨ start + idleTimeout < Time.horizon) :
    new remote idleTimeout start = silentSince remote idleTimeout start := by
  unfold new silentSince
  rcases h with h | h
  · rw [if_pos h, if_pos h]
  · rw [Time.sleepUntil, Time.after?, if_pos h]
    rfl

theorem touch_silentSince (h : idleTimeout = 0 ∨ now + idleTimeout < Time.horizon) :
    (silentSince remote idleTimeout last).touch now = silentSince remote idleTimeout now := by
  unfold touch silentSince
  by_cases hzero : idleTimeout = 0
  · simp [hzero]
  · have hnow := h.resolve_left hzero
    simp [hzero, Time.after?, hnow]

/-- The silence has lasted too long from the tick on at which the timeout has passed. -/
theorem hasExpired_silentSince :
    (silentSince remote idleTimeout last).hasExpired now = true ↔
      idleTimeout ≠ 0 ∧ (last + idleTimeout).tick * Duration.perMilli ≤ now := by
  unfold hasExpired silentSince
  by_cases hzero : idleTimeout = 0
  · simp [hzero]
  · rw [if_neg hzero, and_iff_right hzero, Option.any_some]
    exact Time.hasFired_iff

/-- **One operation restarts the silence if and only if it moves a byte.** -/
theorem perform_silentSince (op : Operation) (hlast : last ≤ now)
    (h : idleTimeout = 0 ∨ now + idleTimeout < Time.horizon) :
    ((silentSince remote idleTimeout last).perform now op).2.1 =
      silentSince remote idleTimeout (if 0 < op.moved then max last now else last) := by
  rw [perform_eq]
  by_cases hwaits : op.waits = true
  · have hmoved : op.moved = 0 := by
      revert hwaits
      cases op <;> rename_i below <;> cases below <;> simp [Operation.waits, Operation.moved]
    rw [if_pos hwaits, hmoved, if_neg (Nat.lt_irrefl 0)]
    split <;> rfl
  · rw [if_neg hwaits]
    dsimp only
    split
    · rw [touch_silentSince h, Nat.max_eq_right hlast]
    · rfl

/-! ## Any number of operations -/

theorem lastTraffic_cons (x : Time × Operation) (calls : List (Time × Operation)) :
    lastTraffic last (x :: calls) =
      lastTraffic (if 0 < x.2.moved then max last x.1 else last) calls := rfl

/-- **After any operations**, at times that never go back, a connection has been silent since the last
traffic. -/
theorem after_silentSince {calls : List (Time × Operation)}
    (htimes : (last :: calls.map Prod.fst).Pairwise (· ≤ ·))
    (h : idleTimeout = 0 ∨ ∀ x ∈ calls, x.1 + idleTimeout < Time.horizon) :
    (silentSince remote idleTimeout last).after calls =
      silentSince remote idleTimeout (lastTraffic last calls) := by
  induction calls generalizing last with
  | nil => rfl
  | cons x calls ih =>
    obtain ⟨hlast, htimes⟩ := List.pairwise_cons.1 htimes
    obtain ⟨hx, htail⟩ := List.pairwise_cons.1 htimes
    show ((silentSince remote idleTimeout last).perform x.1 x.2).2.1.after calls = _
    rw [perform_silentSince x.2 (hlast x.1 List.mem_cons_self)
      (h.imp_right fun h => h x List.mem_cons_self), lastTraffic_cons]
    -- Later calls come neither before this one nor before the traffic so far.
    refine ih (List.pairwise_cons.2 ⟨fun t ht => ?_, htail⟩)
      (h.imp_right fun h y hy => h y (List.mem_cons_of_mem _ hy))
    split
    · exact Nat.max_le.2 ⟨hlast t (List.mem_cons_of_mem _ ht), hx t ht⟩
    · exact hlast t (List.mem_cons_of_mem _ ht)

theorem after_new {calls : List (Time × Operation)}
    (htimes : (start :: calls.map Prod.fst).Pairwise (· ≤ ·))
    (h : idleTimeout = 0 ∨ ∀ t ∈ start :: calls.map Prod.fst, t + idleTimeout < Time.horizon) :
    (new remote idleTimeout start).after calls =
      silentSince remote idleTimeout (lastTraffic start calls) := by
  rw [new_eq_silentSince (h.imp_right fun h => h start List.mem_cons_self)]
  refine after_silentSince htimes (h.imp_right fun h x hx => ?_)
  exact h x.1 (List.mem_cons_of_mem _ (List.mem_map_of_mem hx))

/-! ## When an operation is given up -/

/-- **An operation is given up exactly if it would have to wait and the connection has been silent for
the timeout**, since the last operation that moved a byte in either direction or since its beginning, up
to the next tick of the clock.  In every other case its result is that of the stream below, and nothing is
logged.  A timeout of zero is none.

The times never go back, and the deadlines can be represented if there are any. -/
theorem gives_up_when_silent (remote : Endpoint) (idleTimeout : Duration) (start now : Time)
    (calls : List (Time × Operation)) (op : Operation)
    (htimes : (start :: (calls.map Prod.fst ++ [now])).Pairwise (· ≤ ·))
    (hdeadlines : idleTimeout = 0 ∨
      ∀ t ∈ start :: calls.map Prod.fst, t + idleTimeout < Time.horizon) :
    let (result, _, entries) := ((new remote idleTimeout start).after calls).perform now op
    let silent := idleTimeout ≠ 0 ∧
      (lastTraffic start calls + idleTimeout).tick * Duration.perMilli ≤ now
    (op.waits = true ∧ silent →
        result = op.timedOut ∧ entries = [⟨.idleClosed remote.print idleTimeout, []⟩]) ∧
      (¬ (op.waits = true ∧ silent) → result = op ∧ entries = []) := by
  have hbefore : (start :: calls.map Prod.fst).Pairwise (· ≤ ·) :=
    htimes.sublist ((List.sublist_append_left _ _).cons_cons start)
  rw [after_new hbefore hdeadlines, perform_eq]
  by_cases hwaits : op.waits = true
  · rw [if_pos hwaits]
    by_cases hexpired : (silentSince remote idleTimeout (lastTraffic start calls)).hasExpired now = true
    · rw [if_pos hexpired]
      exact ⟨fun _ => ⟨rfl, rfl⟩, fun h => absurd ⟨hwaits, hasExpired_silentSince.1 hexpired⟩ h⟩
    · rw [if_neg hexpired]
      exact ⟨fun h => absurd (hasExpired_silentSince.2 h.2) hexpired, fun _ => ⟨rfl, rfl⟩⟩
  · rw [if_neg hwaits]
    exact ⟨fun h => absurd h.1 hwaits, fun _ => ⟨rfl, rfl⟩⟩

/-- A byte was read one nanosecond after the beginning; a write of nothing and a flush do not count.  A
timeout of five seconds is over at the next tick, and not one nanosecond earlier. -/
theorem gives_up_at_the_tick :
    let remote : Endpoint := ⟨.v4 127 0 0 1, 40000⟩
    let calls : List (Time × Operation) :=
      [(1, .read (.done [0x70])), (3000000000, .write (.done 0)), (4000000000, .flush (.done ()))]
    let c := (new remote 5000000000 0).after calls
    (c.perform 5000999999 (.read .pending)).1 = .read .pending ∧
      (c.perform 5001000000 (.read .pending)).1 = .read (.failed .timedOut 0) := by
  intro remote calls c
  constructor
  · exact ((gives_up_when_silent remote 5000000000 0 5000999999 calls (.read .pending) (by decide)
      (by decide)).2 (by decide)).1
  · exact ((gives_up_when_silent remote 5000000000 0 5001000000 calls (.read .pending) (by decide)
      (by decide)).1 (by decide)).1

end Connection

end HealthService
