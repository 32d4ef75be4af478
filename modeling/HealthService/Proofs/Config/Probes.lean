import HealthService.Config.Probes
import Mathlib.Data.List.Forall2

/-!
# Which probes a configuration makes

The probes of a section are made one after another, and the first check that makes none ends it.

* `mapM_eq_ok_iff`, `mapM_eq_error_iff` — steps that may fail, one after another: all succeed, or the first
  that fails decides.
* `Probe.toHttpProbe_eq_ok_iff` — a check makes a probe just if it can be asked.
* `Health.probes_eq_ok_iff`, `Health.probes_eq_error_iff` — **the probes of a section, or the first of its
  checks that cannot be asked.**
-/

namespace HealthService

/-! ## One thing after another -/

section

variable {α β ε : Type} {f : α → Except ε β} {x : α} {xs : List α}

theorem mapM_cons_of_ok {y : β} (hx : f x = .ok y) (xs : List α) :
    (x :: xs).mapM f = (xs.mapM f).map (y :: ·) := by
  rw [List.mapM_cons, hx]
  cases xs.mapM f <;> rfl

theorem mapM_cons_of_error {e : ε} (hx : f x = .error e) (xs : List α) :
    (x :: xs).mapM f = .error e := by
  rw [List.mapM_cons, hx]
  rfl

/-- All steps succeed. -/
theorem mapM_eq_ok_iff {ys : List β} :
    xs.mapM f = .ok ys ↔ List.Forall₂ (fun x y => f x = .ok y) xs ys := by
  induction xs generalizing ys with
  | nil =>
    rw [List.mapM_nil, List.forall₂_nil_left_iff]
    exact ⟨fun h => (Except.ok.inj h).symm, fun h => congrArg _ h.symm⟩
  | cons x xs ih =>
    rw [List.forall₂_cons_left_iff]
    cases hx : f x with
    | error e => simp [mapM_cons_of_error hx]
    | ok y =>
      simp only [mapM_cons_of_ok hx, ← ih, Except.ok.injEq]
      cases xs.mapM f <;> simp [Except.map, eq_comm]

/-- The first step that fails decides. -/
theorem mapM_eq_error_iff {e : ε} :
    xs.mapM f = .error e ↔ ∃ before x after, xs = before ++ x :: after ∧
      (∀ y ∈ before, ∃ z, f y = .ok z) ∧ f x = .error e := by
  induction xs with
  | nil => simp [pure, Except.pure]
  | cons x xs ih =>
    simp only [List.cons_eq_append_iff]
    cases hx : f x with
    | error d =>
      -- this step is the first that fails, so nothing can stand before it
      rw [mapM_cons_of_error hx]
      constructor
      · rintro ⟨⟩
        exact ⟨[], x, xs, Or.inl ⟨rfl, rfl⟩, List.forall_mem_nil _, hx⟩
      · rintro ⟨before, y, after, ⟨rfl, hxs⟩ | ⟨rest, rfl, rfl⟩, hbefore, hy⟩
        · obtain ⟨rfl, rfl⟩ := List.cons.inj hxs
          exact congrArg _ (Except.error.inj (hx.symm.trans hy))
        · obtain ⟨z, hz⟩ := hbefore x List.mem_cons_self
          cases hx.symm.trans hz
    | ok b =>
      -- the first step that fails is one of the others, and this one stands before it
      have hstep : (x :: xs).mapM f = .error e ↔ xs.mapM f = .error e := by
        rw [mapM_cons_of_ok hx]
        cases xs.mapM f <;> simp [Except.map]
      rw [hstep, ih]
      constructor
      · rintro ⟨before, y, after, rfl, hbefore, hy⟩
        exact ⟨x :: before, y, after, Or.inr ⟨before, rfl, rfl⟩,
          List.forall_mem_cons.2 ⟨⟨b, hx⟩, hbefore⟩, hy⟩
      · rintro ⟨before, y, after, ⟨rfl, hxs⟩ | ⟨rest, rfl, rfl⟩, hbefore, hy⟩
        · obtain ⟨rfl, rfl⟩ := List.cons.inj hxs
          cases hx.symm.trans hy
        · exact ⟨rest, y, after, rfl, (List.forall_mem_cons.1 hbefore).2, hy⟩

end

/-! ## Probes -/

/-- A checker that does what a probe does with some reply, whatever that is and whenever it comes. -/
def HttpProbe.Checks (p : HttpProbe) (c : Checker) : Prop :=
  ∃ answer replyWins, c = p.checker answer replyWins

namespace Config

/-- The status that a check expects is a status code, if it expects any. -/
def Probe.Askable (q : Probe) : Prop :=
  ∀ code ∈ q.expectedStatus, 100 ≤ code.toNat ∧ code.toNat ≤ 999

/-- What is asked for a check. -/
def Probe.asked (q : Probe) : HttpProbe := ⟨q.name, q.url, q.expectedStatus.map UInt16.toNat⟩

/-- An error tells of a check, by its name and the status that it expects, which is no status code. -/
structure Probe.Refused (q : Probe) (e : ProbeError) : Prop where
  name : e.name = q.name
  status : q.expectedStatus.map UInt16.toNat = some e.status
  range : ¬ (100 ≤ e.status ∧ e.status ≤ 999)

theorem isStatusCode_iff {n : Nat} : isStatusCode n = true ↔ 100 ≤ n ∧ n ≤ 999 := by
  rw [isStatusCode, Bool.and_eq_true, decide_eq_true_iff, decide_eq_true_iff]

/-- A check makes a probe just if it can be asked. -/
theorem Probe.toHttpProbe_eq_ok_iff {q : Probe} {p : HttpProbe} :
    q.toHttpProbe = .ok p ↔ q.Askable ∧ q.asked = p := by
  obtain ⟨name, url, expected⟩ := q
  cases expected with
  | none => simp [toHttpProbe, Askable, asked]
  | some code =>
    by_cases h : 100 ≤ code.toNat ∧ code.toNat ≤ 999 <;>
      simp [toHttpProbe, Askable, asked, isStatusCode_iff, h]

/-- Otherwise it is told by its name and the status that it expects. -/
theorem Probe.toHttpProbe_eq_error_iff {q : Probe} {e : ProbeError} :
    q.toHttpProbe = .error e ↔ q.Refused e := by
  obtain ⟨name, url, expected⟩ := q
  obtain ⟨name', status⟩ := e
  constructor
  · intro h
    cases expected with
    | none => cases h
    | some code =>
      by_cases hcode : isStatusCode code.toNat = true
      · simp [toHttpProbe, hcode] at h
      · simp only [toHttpProbe, if_neg hcode] at h
        obtain ⟨rfl, rfl⟩ := ProbeError.mk.inj (Except.error.inj h)
        exact ⟨rfl, rfl, mt isStatusCode_iff.2 hcode⟩
  · rintro ⟨hname, hstatus, hrange⟩
    obtain ⟨code, rfl, rfl⟩ := Option.map_eq_some_iff.1 hstatus
    obtain rfl : name' = name := hname
    simp only [toHttpProbe, if_neg (mt isStatusCode_iff.1 hrange)]

/-- The first check of a section that cannot be asked, by its name and the status that it expects. -/
def Health.FirstRefused (s : Health) (e : ProbeError) : Prop :=
  ∃ before q after, s.checks = before ++ q :: after ∧ (∀ p ∈ before, p.Askable) ∧ q.Refused e

/-- **The probes of a section** are those of its checks in their order, if all can be asked. -/
theorem Health.probes_eq_ok_iff {s : Health} {ps : List HttpProbe} :
    s.probes = .ok ps ↔ (∀ q ∈ s.checks, q.Askable) ∧ s.checks.map Probe.asked = ps := by
  have hmap : List.Forall₂ (fun q p => Probe.asked q = p) s.checks ps ↔
      s.checks.map Probe.asked = ps := by
    rw [← List.forall₂_eq_eq_eq, List.forall₂_map_left_iff]
  simp only [probes, mapM_eq_ok_iff, Probe.toHttpProbe_eq_ok_iff]
  rw [List.forall₂_and_left, hmap]

/-- Otherwise the first check is told that cannot be asked. -/
theorem Health.probes_eq_error_iff {s : Health} {e : ProbeError} :
    s.probes = .error e ↔ s.FirstRefused e := by
  have hok : ∀ p : Probe, (∃ q, p.toHttpProbe = .ok q) ↔ p.Askable := fun p => by
    simp [Probe.toHttpProbe_eq_ok_iff]
  simp only [probes, mapM_eq_error_iff, Probe.toHttpProbe_eq_error_iff, hok, FirstRefused]

end Config
end HealthService
