import HealthService.Log.Event
import HealthService.Net.Address
import HealthService.OsError
import HealthService.Time.Clock

/-!
# Handshakes

Before a secure connection can be used, server and peer shake hands. Many handshakes are under way at the
same time, but not more than a bound allows; as long as so many are, no other peer is accepted. A peer
that fails or takes too long is sent away, and nobody else notices.

`Admission.step?` does the next thing that is to be done: it accepts the next peer if there is room,
or else it ends the handshake that is the first to end. `Admission.run` goes on for as long as there
is something to do; the connections that are ready are in `secured`.
-/

namespace HealthService

/-- How a handshake goes once it has begun. -/
inductive Handshake where
  | succeeds (after : Duration)
  | fails (after : Duration) (reason : String)
  | stalls
  deriving DecidableEq, Repr

/-- Somebody who wants a secure connection. -/
structure Peer where
  remote : Endpoint
  arrival : Time
  handshake : Handshake
  deriving DecidableEq, Repr

/-- How a handshake ends. -/
inductive HandshakeEnd where
  | secured
  | failed (reason : String)
  | timedOut
  deriving DecidableEq, Repr

/-- A handshake under way. -/
structure PendingHandshake where
  peer : Peer
  /-- When the peer was accepted. -/
  accepted : Time
  deriving DecidableEq, Repr

namespace PendingHandshake

/-- When the peer is sent away. -/
def due (timeout : Duration) (p : PendingHandshake) : Time :=
  p.accepted.wakeUp (p.accepted.sleepUntil timeout)

/-- What happens after some time, unless the peer is sent away before. -/
def endOrDue (timeout : Duration) (p : PendingHandshake) (after : Duration) (e : HandshakeEnd) :
    Time × HandshakeEnd :=
  if p.accepted + after ≤ p.due timeout then (p.accepted + after, e) else (p.due timeout, .timedOut)

/-- When and how a handshake ends. -/
def outcome (timeout : Duration) (p : PendingHandshake) : Time × HandshakeEnd :=
  match p.peer.handshake with
  | .succeeds after => p.endOrDue timeout after .secured
  | .fails after reason => p.endOrDue timeout after (.failed reason)
  | .stalls => (p.due timeout, .timedOut)

/-- What is logged at the end of a handshake. -/
def entries (p : PendingHandshake) : HandshakeEnd → List Entry
  | .secured => []
  | .failed reason => [⟨.handshakeFailed p.peer.remote.print reason, []⟩]
  | .timedOut => [⟨.handshakeTimedOut p.peer.remote.print, []⟩]

end PendingHandshake

/-- Peers on their way in. -/
structure Admission where
  now : Time := 0
  /-- Those that have not been accepted yet, in the order of their arrival. -/
  waiting : List Peer
  pending : List PendingHandshake := []
  /-- The connections that are ready, and since when. -/
  secured : List (Time × Endpoint) := []
  log : List Entry := []
  deriving DecidableEq, Repr

namespace Admission

/-- How many handshakes may be under way at the same time. -/
def maxPending : Nat := 64

/-- When the next peer is accepted, if there is one and there is room for it. -/
def acceptance? (a : Admission) : Option (Time × Peer × List Peer) :=
  match a.waiting with
  | [] => none
  | p :: ps => if a.pending.length < maxPending then some (max a.now p.arrival, p, ps) else none

/-- The handshake that is the first to end; `before` and `after` are the others. -/
structure FirstEnd where
  time : Time
  outcome : HandshakeEnd
  handshake : PendingHandshake
  before : List PendingHandshake
  after : List PendingHandshake

/-- Finds the handshake that is the first to end. -/
def firstEnd? (timeout : Duration) : List PendingHandshake → Option FirstEnd
  | [] => none
  | p :: ps =>
    let (time, outcome) := p.outcome timeout
    match firstEnd? timeout ps with
    | none => some ⟨time, outcome, p, [], ps⟩
    | some f =>
      if time ≤ f.time then some ⟨time, outcome, p, [], ps⟩
      else some { f with before := p :: f.before }

/-- Accepts a peer. -/
def accept (a : Admission) (t : Time) (p : Peer) (rest : List Peer) : Admission :=
  { a with now := t, waiting := rest, pending := a.pending ++ [⟨p, t⟩] }

/-- Ends a handshake. -/
def finish (a : Admission) (f : FirstEnd) : Admission :=
  { a with
    now := max a.now f.time
    pending := f.before ++ f.after
    secured := a.secured ++
      if f.outcome = .secured then [(max a.now f.time, f.handshake.peer.remote)] else []
    log := a.log ++ f.handshake.entries f.outcome }

/-- Does the next thing that is to be done. -/
def step? (timeout : Duration) (a : Admission) : Option Admission :=
  match a.acceptance?, firstEnd? timeout a.pending with
  | some (t, p, rest), some f => if t ≤ max a.now f.time then a.accept t p rest else a.finish f
  | some (t, p, rest), none => a.accept t p rest
  | none, some f => a.finish f
  | none, none => none

theorem length_of_firstEnd? {timeout : Duration} {ps : List PendingHandshake} {f : FirstEnd}
    (h : firstEnd? timeout ps = some f) : (f.before ++ f.after).length + 1 = ps.length := by
  induction ps generalizing f with
  | nil => cases h
  | cons p ps ih =>
    simp only [firstEnd?] at h
    split at h
    · injection h with h
      subst h
      rfl
    · rename_i g hg
      have := ih hg
      split at h <;> (injection h with h; subst h)
      · rfl
      · simp only [List.cons_append, List.length_cons]
        omega

/-- How much is to be done at most: every peer is accepted once and shakes hands once. -/
def remaining (a : Admission) : Nat := 2 * a.waiting.length + a.pending.length

theorem remaining_accept {a : Admission} {t : Time} {p : Peer} {rest : List Peer}
    (h : a.acceptance? = some (t, p, rest)) : (a.accept t p rest).remaining < a.remaining := by
  unfold acceptance? at h
  split at h
  · cases h
  · rename_i q ps hq
    split at h
    · injection h with h
      injection h with _ h
      injection h with _ h
      subst h
      simp only [remaining, accept, hq, List.length_append, List.length_cons, List.length_nil]
      omega
    · cases h

theorem remaining_finish {timeout : Duration} {a : Admission} {f : FirstEnd}
    (h : firstEnd? timeout a.pending = some f) : (a.finish f).remaining < a.remaining := by
  have := length_of_firstEnd? h
  simp only [remaining, finish]
  omega

theorem remaining_of_step? {timeout : Duration} {a b : Admission} (h : a.step? timeout = some b) :
    b.remaining < a.remaining := by
  unfold step? at h
  split at h
  · rename_i ha hf
    split at h <;> (injection h with h; subst h)
    · exact remaining_accept ha
    · exact remaining_finish hf
  · rename_i ha _
    injection h with h
    subst h
    exact remaining_accept ha
  · rename_i hf
    injection h with h
    subst h
    exact remaining_finish hf
  · cases h

/-- Does everything that is to be done. -/
def run (timeout : Duration) (a : Admission) : Admission :=
  match _h : a.step? timeout with
  | some b => run timeout b
  | none => a
termination_by a.remaining
decreasing_by exact remaining_of_step? _h

/-- What the server takes in, in the order in which it is ready. An error would stop the server, so nothing is
left of a handshake that fails or takes too long. -/
def incoming (a : Admission) : List (Except OsError Endpoint) := a.secured.map fun x => .ok x.2

end Admission

end HealthService
