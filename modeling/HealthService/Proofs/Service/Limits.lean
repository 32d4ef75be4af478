import HealthService.Proofs.Readiness.Limits
import HealthService.Proofs.Service.Stacks
import HealthService.Server.WriteTimeout

/-!
# Services that somebody gives up

A caller may wait for a reply for a while and then give up.  A service that heeds this (`HeedsLimits`) is
one whose reply in time is the one that it would have given anyway, and of which no more is heard after the
limit.

* `HealthHandler.heedsLimits` — **the health handler heeds the limits of its callers**.
* `Layer.heedsLimits_stack` — layers around a service make no difference to that.
-/

namespace HealthService

open Pool

/-- A service heeds the limits of its callers.  What it would do for a caller who waits for ever is all that
has to be known: it does just that if it is done by the limit, and otherwise it stops there.  It counts as
abandoned by a caller who waits for ever if it would never be done. -/
structure Service.HeedsLimits {σ : Type} (v : Service σ) (clock : σ → Time) : Prop where
  in_time : ∀ (c : Call) (s : σ) (l : Time), c.limit = none → (v.call c s).1.outcome ≠ .abandoned →
    clock (v.call c s).2 ≤ (clock s).wakeUp l → v.call { c with limit := some l } s = v.call c s
  late : ∀ (c : Call) (s : σ) (l : Time), c.limit = none →
    ((v.call c s).1.outcome ≠ .abandoned → (clock s).wakeUp l < clock (v.call c s).2) →
      (v.call { c with limit := some l } s).1.outcome = .abandoned ∧
        clock (v.call { c with limit := some l } s).2 = (clock s).wakeUp l

/-! ## The handler -/

namespace HealthHandler

variable {h : HealthHandler}

theorem abandoned_replyReady {q : Request} {v : Verdict} {entries : List Entry} {took : Duration} :
    (replyReady q v entries took).outcome = .abandoned ↔ v = .abandoned := by
  cases v <;> simp [replyReady]

/-- What is replied without an evaluation is replied under any limit. -/
theorem handle_of_not_ready {c : Call} {s : HealthState} (hroute : routeOf c.request ≠ .ready) :
    (h.handle c s).1.outcome ≠ .abandoned ∧ (h.handle c s).2 = s ∧
      ∀ limit, h.handle { c with limit := limit } s = h.handle c s := by
  cases hr : routeOf c.request with
  | unknown =>
    rw [handle_unknown h s hr]
    exact ⟨by simp, rfl, fun limit => handle_unknown h s hr⟩
  | notAllowed =>
    rw [handle_notAllowed h s hr]
    exact ⟨by simp, rfl, fun limit => handle_notAllowed h s hr⟩
  | live =>
    rw [handle_live h s hr]
    exact ⟨by simp, rfl, fun limit => handle_live h s hr⟩
  | ready => exact absurd hr hroute

/-- What is replied to a request for readiness, in terms of its evaluation. -/
theorem handle_of_ready {c : Call} {s : HealthState} (hroute : routeOf c.request = .ready) :
    h.handle c s =
      let e := h.ready.evaluate s.pool.contexts.background.2 c.limit (entered s)
      (replyReady c.request e.1 e.2.2 (e.2.1.pool.now - s.pool.now), e.2.1) :=
  handle_ready h s hroute rfl

/-- **The health handler heeds the limits of its callers.** -/
theorem heedsLimits (h : HealthHandler) : h.service.HeedsLimits HealthState.clock where
  in_time c s l hnone hreply hle := by
    show h.handle { c with limit := some l } s = h.handle c s
    change (h.handle c s).1.outcome ≠ .abandoned at hreply
    change (h.handle c s).2.pool.now ≤ s.pool.now.wakeUp l at hle
    by_cases hroute : routeOf c.request = .ready
    · have hroute' : routeOf { c with limit := some l }.request = .ready := hroute
      rw [handle_of_ready hroute, hnone] at hreply hle ⊢
      rw [handle_of_ready hroute']
      dsimp only at hreply hle ⊢
      rw [Ne, abandoned_replyReady] at hreply
      rw [Readiness.evaluate_in_time hreply hle]
    · exact (handle_of_not_ready hroute).2.2 _
  late c s l hnone hlate := by
    show (h.handle { c with limit := some l } s).1.outcome = .abandoned ∧
      (h.handle { c with limit := some l } s).2.pool.now = s.pool.now.wakeUp l
    change (h.handle c s).1.outcome ≠ .abandoned → s.pool.now.wakeUp l < (h.handle c s).2.pool.now at hlate
    by_cases hroute : routeOf c.request = .ready
    · have hroute' : routeOf { c with limit := some l }.request = .ready := hroute
      rw [handle_of_ready hroute, hnone] at hlate
      rw [handle_of_ready hroute']
      dsimp only at hlate ⊢
      rw [Ne, abandoned_replyReady] at hlate
      rw [abandoned_replyReady]
      obtain ⟨hverdict, -, -, hnow⟩ := Readiness.evaluate_late hlate
      exact ⟨hverdict, hnow⟩
    · obtain ⟨hreply, hstate, -⟩ := handle_of_not_ready (h := h) (s := s) hroute
      rw [hstate] at hlate
      exact absurd (hlate hreply) (Time.le_wakeUp _ _).not_gt

end HealthHandler

/-! ## Layers -/

namespace Layer

variable {σ : Type} {v : Service σ} {clock : σ → Time}

/-- A layer passes the limit on as it is. -/
theorem inward_limit (layer : Layer) (c : Call) (limit : Option Time) :
    layer.inward { c with limit := limit } = (layer.inward c).map ({ · with limit := limit }) := by
  cases layer with
  | recovery => rfl
  | trace => rfl
  | logger => rfl
  | auth credentials =>
    rw [inward, inward]
    split <;> rfl

theorem limit_of_inward {layer : Layer} {c d : Call} (h : layer.inward c = .ok d) :
    d.limit = c.limit := by
  have hsame := layer.inward_limit c c.limit
  rw [h] at hsame
  have hd : d = { d with limit := c.limit } := Except.ok.inj hsame
  rw [hd]

/-- What a layer makes of a reply has nothing to do with the limit. -/
theorem outward_limit (layer : Layer) (c : Call) (limit : Option Time) (r : Reply) :
    layer.outward { c with limit := limit } r = layer.outward c r := by
  cases layer <;> rfl

/-- What is abandoned within a layer is abandoned, and nothing else is. -/
theorem abandoned_outward {layer : Layer} {c : Call} {r : Reply} :
    (layer.outward c r).outcome = .abandoned ↔ r.outcome = .abandoned := by
  obtain ⟨outcome, early, late, took⟩ := r
  cases layer with
  | recovery =>
    cases outcome with
    | panicked payload atOnce => cases atOnce <;> simp [outward, recover]
    | _ => simp [outward, recover]
  | trace => cases outcome <;> simp [outward, leaveTrace, Reply.mapResponse]
  | logger => cases outcome <;> simp [outward, logResponse]
  | auth credentials => rfl

/-- A layer that does not pass a call on answers it. -/
theorem answers_of_inward {layer : Layer} {c : Call} {r : Reply} (h : layer.inward c = .error r) :
    r.outcome ≠ .abandoned := by
  cases layer with
  | auth credentials =>
    simp only [inward] at h
    split at h
    · cases h
    · cases h
      simp
  | _ => cases h

/-- A layer around a service makes no difference to whether that heeds limits. -/
theorem heedsLimits_wrap (layer : Layer) (hv : v.HeedsLimits clock) :
    (wrap layer v).HeedsLimits clock where
  in_time c s l hnone hreply hle := by
    rw [call_wrap] at hreply hle
    rw [call_wrap, call_wrap, inward_limit]
    cases hin : layer.inward c with
    | ok d =>
      simp only [hin] at hreply hle
      rw [Ne, abandoned_outward] at hreply
      have hsame := hv.in_time d s l ((limit_of_inward hin).trans hnone) hreply hle
      simp only [Except.map, hsame, outward_limit]
    | error r => rfl
  late c s l hnone hlate := by
    rw [call_wrap] at hlate
    rw [call_wrap, inward_limit]
    cases hin : layer.inward c with
    | ok d =>
      simp only [hin, Ne, abandoned_outward] at hlate
      simp only [Except.map, outward_limit, abandoned_outward]
      exact hv.late d s l ((limit_of_inward hin).trans hnone) hlate
    | error r =>
      simp only [hin] at hlate
      exact absurd (hlate (answers_of_inward hin)) (Time.le_wakeUp _ _).not_gt

/-- **Layers around a service make no difference to whether that heeds limits.** -/
theorem heedsLimits_stack (layers : List Layer) (hv : v.HeedsLimits clock) :
    (stack layers v).HeedsLimits clock := by
  induction layers with
  | nil => exact hv
  | cons layer layers ih => exact heedsLimits_wrap layer ih

end Layer
end HealthService
