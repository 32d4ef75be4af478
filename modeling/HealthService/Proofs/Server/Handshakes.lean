import HealthService.Server.Handshakes
import Mathlib.Data.List.Basic

/-!
# Handshakes against the clock

Many handshakes are under way at the same time, but none of them makes a difference to how another one ends:
that is settled by the time at which its peer was accepted and by the timeout.

* `PendingHandshake.timedOut_iff` — **a handshake is cut off just if it takes longer than to the tick of its
  timeout**.
* `Admission.step_keeps` — what one step of an admission logs, and that it brings in no new peers.
* `Admission.run_keeps` — **what a whole run logs is how single handshakes ended**.
-/

namespace HealthService

/-- After how long a handshake ends of itself, and how, if it does. -/
def Handshake.ends? : Handshake → Option (Duration × HandshakeEnd)
  | .succeeds after => some (after, .secured)
  | .fails after reason => some (after, .failed reason)
  | .stalls => none

/-- No handshake times out of itself. -/
theorem Handshake.ne_timedOut_of_ends {h : Handshake} {after : Duration} {e : HandshakeEnd}
    (hends : h.ends? = some (after, e)) : e ≠ .timedOut := by
  cases h with
  | succeeds d =>
    obtain ⟨-, rfl⟩ := Prod.mk.inj (Option.some.inj hends)
    exact nofun
  | fails d reason =>
    obtain ⟨-, rfl⟩ := Prod.mk.inj (Option.some.inj hends)
    exact nofun
  | stalls => cases hends

namespace PendingHandshake

variable {p : PendingHandshake} {timeout after : Duration} {e : HandshakeEnd}

/-! ## One handshake -/

theorem outcome_eq (timeout : Duration) (p : PendingHandshake) : p.outcome timeout =
    match p.peer.handshake.ends? with
    | some (after, e) => p.endOrDue timeout after e
    | none => (p.due timeout, .timedOut) := by
  unfold outcome
  cases p.peer.handshake <;> rfl

/-- A handshake that ends in time ends of itself. -/
theorem outcome_of_le (hends : p.peer.handshake.ends? = some (after, e))
    (hle : p.accepted + after ≤ p.due timeout) : p.outcome timeout = (p.accepted + after, e) := by
  rw [outcome_eq, hends]
  exact if_pos hle

/-- A handshake that does not end in time is cut off when its timeout is over. -/
theorem outcome_of_late (hlate : ∀ x ∈ p.peer.handshake.ends?, p.due timeout < p.accepted + x.1) :
    p.outcome timeout = (p.due timeout, .timedOut) := by
  rw [outcome_eq]
  cases hends : p.peer.handshake.ends? with
  | none => rfl
  | some x =>
    have hlt := hlate x (by rw [hends]; rfl)
    exact if_neg (Nat.not_le.2 hlt)

/-- **A handshake is cut off just if it takes longer than to the tick of its timeout.** -/
theorem timedOut_iff : (p.outcome timeout).2 = .timedOut ↔
    ∀ x ∈ p.peer.handshake.ends?, p.due timeout < p.accepted + x.1 := by
  constructor
  · rintro htimedOut ⟨after, e⟩ hends
    by_contra hle
    rw [outcome_of_le hends (Nat.not_lt.1 hle)] at htimedOut
    exact Handshake.ne_timedOut_of_ends hends htimedOut
  · intro hlate
    rw [outcome_of_late hlate]

/-- A peer is reported as cut off only if its handshake was. -/
theorem timedOut_of_entry {x : Entry} {remote : String} (hentry : x ∈ p.entries (p.outcome timeout).2)
    (hevent : x.event = .handshakeTimedOut remote) : p.peer.remote.print = remote ∧
      ∀ x ∈ p.peer.handshake.ends?, p.due timeout < p.accepted + x.1 := by
  rw [← timedOut_iff]
  cases houtcome : (p.outcome timeout).2 with
  | secured =>
    rw [houtcome] at hentry
    cases hentry
  | failed reason =>
    rw [houtcome, entries, List.mem_singleton] at hentry
    rw [hentry] at hevent
    cases hevent
  | timedOut =>
    rw [houtcome, entries, List.mem_singleton] at hentry
    rw [hentry] at hevent
    exact ⟨Event.handshakeTimedOut.inj hevent, rfl⟩

end PendingHandshake

namespace Admission

variable {timeout : Duration} {a b : Admission}

/-! ## All handshakes -/

/-- A peer that is still on its way in. -/
def Has (a : Admission) (p : Peer) : Prop := p ∈ a.waiting ∨ ∃ x ∈ a.pending, x.peer = p

/-- The handshake that is the first to end is one of those under way, and so are the others. -/
theorem mem_of_firstEnd? {ps : List PendingHandshake} {f : FirstEnd}
    (h : firstEnd? timeout ps = some f) : f.handshake ∈ ps ∧ (∀ p ∈ f.before ++ f.after, p ∈ ps) ∧
      f.outcome = (f.handshake.outcome timeout).2 := by
  induction ps generalizing f with
  | nil => cases h
  | cons p ps ih =>
    have hfirst : ∀ g : FirstEnd, g = ⟨(p.outcome timeout).1, (p.outcome timeout).2, p, [], ps⟩ →
        g.handshake ∈ p :: ps ∧ (∀ q ∈ g.before ++ g.after, q ∈ p :: ps) ∧
          g.outcome = (g.handshake.outcome timeout).2 := by
      rintro g rfl
      exact ⟨List.mem_cons_self, fun q hq => List.mem_cons_of_mem _ hq, rfl⟩
    simp only [firstEnd?] at h
    split at h
    · exact hfirst f (Option.some.inj h).symm
    · rename_i g hg
      split at h
      · exact hfirst f (Option.some.inj h).symm
      · obtain rfl := Option.some.inj h
        obtain ⟨hmem, hrest, houtcome⟩ := ih hg
        refine ⟨List.mem_cons_of_mem _ hmem, fun q hq => ?_, houtcome⟩
        rcases List.mem_cons.1 hq with rfl | hq
        · exact List.mem_cons_self
        · exact List.mem_cons_of_mem _ (hrest q hq)

/-- What an admission may log: how a handshake ends of a peer on its way in. -/
def MayLog (timeout : Duration) (a : Admission) (e : Entry) : Prop :=
  ∃ p : PendingHandshake, a.Has p.peer ∧ e ∈ p.entries (p.outcome timeout).2

theorem accept_keeps {t : Time} {p : Peer} {rest : List Peer}
    (h : a.acceptance? = some (t, p, rest)) :
    (∀ q, (a.accept t p rest).Has q → a.Has q) ∧ ∀ e ∈ (a.accept t p rest).log, e ∈ a.log := by
  have hwaiting : a.waiting = p :: rest := by
    unfold acceptance? at h
    split at h
    · cases h
    · rename_i q qs hq
      split at h
      · simp only [Option.some.injEq, Prod.mk.injEq] at h
        rw [hq, h.2.1, h.2.2]
      · cases h
  refine ⟨?_, fun e he => he⟩
  rintro q (hq | ⟨x, hx, rfl⟩)
  · exact Or.inl (by rw [hwaiting]; exact List.mem_cons_of_mem _ hq)
  · rcases List.mem_append.1 hx with hx | hx
    · exact Or.inr ⟨x, hx, rfl⟩
    · rw [List.mem_singleton.1 hx]
      exact Or.inl (by rw [hwaiting]; exact List.mem_cons_self)

theorem finish_keeps {f : FirstEnd} (h : firstEnd? timeout a.pending = some f) :
    (∀ q, (a.finish f).Has q → a.Has q) ∧
      ∀ e ∈ (a.finish f).log, e ∈ a.log ∨ a.MayLog timeout e := by
  obtain ⟨hmem, hrest, houtcome⟩ := mem_of_firstEnd? h
  constructor
  · rintro q (hq | ⟨x, hx, rfl⟩)
    · exact Or.inl hq
    · exact Or.inr ⟨x, hrest x hx, rfl⟩
  · intro e he
    refine (List.mem_append.1 he).imp id fun he => ?_
    rw [houtcome] at he
    exact ⟨f.handshake, Or.inr ⟨_, hmem, rfl⟩, he⟩

/-- **One step** brings in nobody new, and logs nothing but how a handshake ends. -/
theorem step_keeps (h : a.step? timeout = some b) :
    (∀ q, b.Has q → a.Has q) ∧ ∀ e ∈ b.log, e ∈ a.log ∨ a.MayLog timeout e := by
  unfold step? at h
  split at h
  · rename_i ha hf
    split at h
    · obtain rfl := Option.some.inj h
      exact ⟨(accept_keeps ha).1, fun e he => Or.inl he⟩
    · obtain rfl := Option.some.inj h
      exact finish_keeps hf
  · rename_i ha _
    obtain rfl := Option.some.inj h
    exact ⟨(accept_keeps ha).1, fun e he => Or.inl he⟩
  · rename_i hf
    obtain rfl := Option.some.inj h
    exact finish_keeps hf
  · cases h

/-- **A whole run** logs nothing but how the handshakes end of peers that were there at its beginning. -/
theorem run_keeps (timeout : Duration) (a : Admission) :
    ∀ e ∈ (a.run timeout).log, e ∈ a.log ∨ a.MayLog timeout e := by
  fun_induction run timeout a with
  | case1 a b hstep ih =>
    obtain ⟨hhas, hlog⟩ := step_keeps hstep
    intro e he
    rcases ih e he with hold | ⟨p, hp, hentry⟩
    · exact hlog e hold
    · exact Or.inr ⟨p, hhas _ hp, hentry⟩
  | case2 a hnone => exact fun e he => Or.inl he

end Admission
end HealthService
