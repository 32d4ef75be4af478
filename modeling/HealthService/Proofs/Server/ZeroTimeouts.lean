import HealthService.Proofs.Server.Handshakes
import HealthService.Proofs.Server.Silence
import HealthService.Server.RequestHead
import HealthService.Server.Shutdown
import HealthService.Server.WriteTimeout

/-!
# Timeouts of zero

A timeout of zero is meant to be none.  Each timeout takes its own way from the settings to the place where
somebody waits, and what a zero means there is decided on the way.

* `answering_of_zero` — a write timeout of zero bounds no response.
* `Connection.perform_new_zero` — an idle timeout of zero bounds no silence, after any operations.
* `headBound_of_zero` — with a read-header timeout of zero, who reads a head is given no bound.
* `handshakeTimeout_of_zero` — a handshake always has a bound: here it is the usual one.
* `zero_is_no_bound` — **what a zero means**, for all services, connections and peers.
* `bounds_despite_zero` — where it does not mean that there is no bound.
-/

namespace HealthService

/-! ## Responses -/

/-- A write timeout of zero bounds no response: every reply is that of the service, unless that says itself
that something took too long. -/
theorem answering_of_zero {σ : Type} {s : Server σ} (hzero : s.settings.writeTimeout = 0)
    (clock : σ → Time) {c : Call} {state : σ} (hreply : (s.service.call c state).1.outcome ≠ .expired) :
    (s.answering clock).call c state = s.service.call c state := by
  have hbound : s.settings.responseBound = none := by
    rw [ServerSettings.responseBound, ServerSettings.bound?, if_pos hzero]
  rw [Server.answering, hbound]
  unfold Service.unbounded
  dsimp only
  split
  · rename_i hexpired
    exact absurd hexpired hreply
  · rfl

/-! ## Connections -/

namespace Connection

/-- Without a deadline every operation has the result of the stream below. -/
theorem perform_of_none {c : Connection} (hnone : c.deadline = none) (now : Time) (op : Operation) :
    c.perform now op = (op, c, []) := by
  have hexpired : c.hasExpired now = false := by rw [hasExpired, hnone]; rfl
  have htouch : c.touch now = c := by rw [touch, hnone]
  rw [perform_eq, hexpired, htouch]
  cases op.waits <;> simp

/-- Without a deadline a connection stays as it is. -/
theorem after_of_none {c : Connection} (hnone : c.deadline = none) (calls : List (Time × Operation)) :
    c.after calls = c := by
  induction calls with
  | nil => rfl
  | cons x calls ih =>
    show (c.perform x.1 x.2).2.1.after calls = c
    rw [perform_of_none hnone]
    exact ih

/-- **An idle timeout of zero bounds no silence**, after any operations at any times. -/
theorem perform_new_zero (remote : Endpoint) (start now : Time) (calls : List (Time × Operation))
    (op : Operation) : ((new remote 0 start).after calls).perform now op =
      (op, new remote 0 start, []) := by
  rw [after_of_none rfl, perform_of_none rfl]

end Connection

/-! ## Heads and handshakes -/

namespace ServerSettings

variable {s : ServerSettings}

/-- With a read-header timeout of zero, who reads a head is given no bound. -/
theorem headBound_of_zero (hzero : s.readHeaderTimeout = 0) : s.headBound = none := by
  rw [headBound, bound?, if_pos hzero]

/-- So a head is read however long the client takes, if that is what having no bound means. -/
theorem readHead_of_zero (hzero : s.readHeaderTimeout = 0) {reader : HeadReader} (hpatient : reader.Patient)
    (begun : Time) (needs : Option Duration) :
    s.readHead reader begun needs = needs.map fun d => (begun + d, .read) := by
  rw [readHead, headBound_of_zero hzero, hpatient]

/-- The bound on a handshake is the usual one if the read-header timeout is zero. -/
theorem handshakeTimeout_of_zero (hzero : s.readHeaderTimeout = 0) :
    s.handshakeTimeout = .ofSeconds 10 := by
  rw [handshakeTimeout, ← headBound, headBound_of_zero hzero]
  rfl

end ServerSettings

/-! ## All together -/

/-- **What a timeout of zero means**, for all services, connections and peers.

* A write timeout: no response is replaced because it came late.  Every reply is that of the service, unless
  the service says itself that something within it took too long.
* An idle timeout: no connection is closed for its silence.  After any operations at any times, each
  operation has the result of the stream below, and nothing is logged.
* A read-header timeout: who reads the heads of requests is given no bound, and so, if that means to wait for
  the client, the head is read however long the client takes.
* For a handshake a read-header timeout of zero stands for the usual ten seconds.  One that ends by the tick
  of these ends as it would of itself, and any other is cut off at that tick.  Of all handshakes of an
  admission just such slow ones are reported as cut off. -/
theorem zero_is_no_bound :
    (∀ {σ : Type} (s : Server σ) (clock : σ → Time) (c : Call) (state : σ),
      s.settings.writeTimeout = 0 → (s.service.call c state).1.outcome ≠ .expired →
      (s.answering clock).call c state = s.service.call c state) ∧
    (∀ s : ServerSettings, s.idleTimeout = 0 →
      ∀ remote start now calls op, let (result, _, entries) :=
          ((Connection.new remote s.idleTimeout start).after calls).perform now op
        result = op ∧ entries = []) ∧
    ∀ s : ServerSettings, s.readHeaderTimeout = 0 →
      (s.headBound = none ∧ ∀ reader : HeadReader, reader.Patient →
        ∀ begun needs, s.readHead reader begun needs = needs.map fun d => (begun + d, .read)) ∧
      (∀ (p : PendingHandshake) after e, p.peer.handshake.ends? = some (after, e) →
        p.accepted + after ≤ p.due (.ofSeconds 10) →
        p.outcome s.handshakeTimeout = (p.accepted + after, e)) ∧
      (∀ p : PendingHandshake,
        (∀ x ∈ p.peer.handshake.ends?, p.due (.ofSeconds 10) < p.accepted + x.1) →
        p.outcome s.handshakeTimeout = (p.due (.ofSeconds 10), .timedOut)) ∧
      ∀ a : Admission, a.pending = [] → a.log = [] → ∀ e ∈ (a.run s.handshakeTimeout).log,
        ∀ remote, e.event = .handshakeTimedOut remote → ∃ p : PendingHandshake, p.peer ∈ a.waiting ∧
          p.peer.remote.print = remote ∧
          ∀ x ∈ p.peer.handshake.ends?, p.due (.ofSeconds 10) < p.accepted + x.1 := by
  refine ⟨fun s clock c state hzero hreply => answering_of_zero hzero clock hreply,
    fun s hzero remote start now calls op => ?_, fun s hzero => ?_⟩
  · rw [hzero, Connection.perform_new_zero]
    exact ⟨rfl, rfl⟩
  · have htimeout := ServerSettings.handshakeTimeout_of_zero hzero
    refine ⟨⟨ServerSettings.headBound_of_zero hzero, fun _ => ServerSettings.readHead_of_zero hzero⟩,
      fun p after e hends hle => ?_, fun p hlate => ?_, fun a hpending hlog e he remote hevent => ?_⟩
    · rw [htimeout]
      exact PendingHandshake.outcome_of_le hends hle
    · rw [htimeout]
      exact PendingHandshake.outcome_of_late hlate
    · rw [htimeout] at he
      rcases Admission.run_keeps _ a e he with hold | ⟨p, hp, hentry⟩
      · rw [hlog] at hold
        cases hold
      · have hwaiting : p.peer ∈ a.waiting := by
          rcases hp with hp | ⟨x, hx, -⟩
          · exact hp
          · rw [hpending] at hx
            cases hx
        obtain ⟨hremote, hlate⟩ := PendingHandshake.timedOut_of_entry hentry hevent
        exact ⟨p, hwaiting, hremote, hlate⟩

/-- A client that needs an hour for the head of its request is heard if the read-header timeout is zero, and
is cut off after ten seconds if that is left as it is. -/
theorem zero_is_no_bound_on_an_hour :
    let s : ServerSettings := { readHeaderTimeout := 0 }
    s.readHead .timed 0 (some (.ofSeconds 3600)) = some (3600000000000, .read) ∧
      ({} : ServerSettings).readHead .timed 0 (some (.ofSeconds 3600)) = some (10000000000, .timedOut) := by
  intro s
  obtain ⟨-, hread⟩ := (zero_is_no_bound.2.2 s rfl).1
  exact ⟨hread .timed HeadReader.patient_timed 0 _, by decide⟩

/-- **Where a zero does not mean that there is no bound.**  With a read-header timeout of zero a handshake
that needs eleven seconds is cut off after ten.  And with a shutdown timeout of zero a server that is told to
stop gives up at once, although the only request would have been answered after 400 ms. -/
theorem bounds_despite_zero :
    let s : ServerSettings := { shutdownTimeout := 0, readHeaderTimeout := 0 }
    let slow : PendingHandshake := ⟨⟨⟨.v4 127 0 0 1, 40000⟩, 0, .succeeds (.ofSeconds 11)⟩, 0⟩
    slow.outcome s.handshakeTimeout = (10000000000, .timedOut) ∧
      (ServerRun.after s.shutdownTimeout {}
        [.request 1 (some (.ofMillis 400)), .stop, .pass (.ofSeconds 1)]).result? =
        some (0, .error (.drain 0)) := by
  intro s slow
  exact ⟨by decide, by decide +kernel⟩

end HealthService
