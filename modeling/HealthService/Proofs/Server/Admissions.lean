import HealthService.Proofs.Check.Steps
import HealthService.Proofs.Server.Handshakes
import Mathlib.Data.List.Perm.Basic
import Mathlib.Logic.Relation
import Mathlib.Order.Bounds.Basic

/-!
# Who comes in

Handshakes end in any order, and while there are as many as there may be, nobody is accepted. Still
everybody who arrives is accepted once, in the order of arrival, and it depends on those who came earlier at
most *when*.

* `Admission.step_cases` — what a step may do, with the conditions under which it does it.
* `Admission.Course.step` — one step keeps the course of an admission, `Admission.Course.of_reaches` any
  number of them.
* `Admission.run_admits` — **the connections that come in are those of the peers who complete their
  handshake in time**, each of them once; a peer is accepted as soon as there is room.
* `Admission.accepted_le`, `Admission.accepted_cases` — nobody waits longer than until the handshakes before
  are due, or for anything but the end of one of them.
-/

namespace HealthService

/-- A peer who does everything at whole milliseconds. -/
structure Peer.Whole (p : Peer) : Prop where
  arrival : p.arrival % Duration.perMilli = 0
  handshake : ∀ x ∈ p.handshake.ends?, x.1 % Duration.perMilli = 0

namespace PendingHandshake

variable {timeout : Duration} {p : PendingHandshake}

/-! ## One handshake -/

/-- The connection that comes of a handshake, with the time from which on it is ready. -/
def connection? (timeout : Duration) (p : PendingHandshake) : Option (Time × Endpoint) :=
  match p.peer.handshake with
  | .succeeds after =>
    if p.accepted + after ≤ p.due timeout then some (p.accepted + after, p.peer.remote) else none
  | .fails _ _ => none
  | .stalls => none

/-- **A connection comes of a handshake that succeeds by the tick of its timeout**, and of no other. -/
theorem connection?_eq_some {c : Time × Endpoint} : p.connection? timeout = some c ↔
    ∃ after, p.peer.handshake = .succeeds after ∧ p.accepted + after ≤ p.due timeout ∧
      c = (p.accepted + after, p.peer.remote) := by
  unfold connection?
  split
  · rename_i after hsucceeds
    rw [hsucceeds]
    constructor
    · intro h
      split at h
      · exact ⟨after, rfl, ‹_›, (Option.some.inj h).symm⟩
      · cases h
    · rintro ⟨d, hd, hle, rfl⟩
      obtain rfl := Handshake.succeeds.inj hd
      exact if_pos hle
  · rename_i after reason hfails
    rw [hfails]
    exact ⟨nofun, fun ⟨_, h, _⟩ => nomatch h⟩
  · rename_i hstalls
    rw [hstalls]
    exact ⟨nofun, fun ⟨_, h, _⟩ => nomatch h⟩

theorem accepted_le_due (timeout : Duration) (p : PendingHandshake) : p.accepted ≤ p.due timeout :=
  Time.le_wakeUp _ _

/-- A handshake does not end before it begins, and not after it is due. -/
theorem outcome_between (timeout : Duration) (p : PendingHandshake) :
    p.accepted ≤ (p.outcome timeout).1 ∧ (p.outcome timeout).1 ≤ p.due timeout := by
  have hcut : p.accepted ≤ p.due timeout ∧ p.due timeout ≤ p.due timeout :=
    ⟨p.accepted_le_due timeout, le_rfl⟩
  rw [outcome_eq]
  split
  · rename_i after e _
    unfold endOrDue
    split
    · exact ⟨Nat.le_add_right _ _, ‹_›⟩
    · exact hcut
  · exact hcut

/-- What is kept of a handshake when it ends is its connection. -/
theorem toList_connection? (timeout : Duration) (p : PendingHandshake) :
    (p.connection? timeout).toList =
      if (p.outcome timeout).2 = .secured then [((p.outcome timeout).1, p.peer.remote)] else [] := by
  unfold connection? outcome
  cases p.peer.handshake with
  | succeeds after =>
    simp only [endOrDue]
    split <;> rfl
  | fails after reason =>
    simp only [endOrDue]
    split <;> rfl
  | stalls => rfl

/-- A timeout that can be represented leaves a handshake all of its time. -/
theorem le_due_of_representable (h : p.accepted + timeout < Time.horizon) :
    p.accepted + timeout ≤ p.due timeout :=
  (Time.wakeUp_sleepUntil h).1

/-- **Among whole milliseconds** the handshakes that succeed within the timeout are those of which a
connection comes. -/
theorem connection?_of_whole (h : p.accepted + timeout < Time.horizon)
    (haccepted : p.accepted % Duration.perMilli = 0) (htimeout : timeout % Duration.perMilli = 0)
    {c : Time × Endpoint} : p.connection? timeout = some c ↔
      ∃ after, p.peer.handshake = .succeeds after ∧ after ≤ timeout ∧
        c = (p.accepted + after, p.peer.remote) := by
  have hdue : p.due timeout = p.accepted + timeout := (Time.wakeUp_sleepUntil h).2 haccepted htimeout
  rw [connection?_eq_some, hdue]
  simp only [Nat.add_le_add_iff_left]

/-- A handshake that begins at a whole millisecond ends at one. -/
theorem whole_outcome (haccepted : p.accepted % Duration.perMilli = 0) (hpeer : p.peer.Whole) :
    (p.outcome timeout).1 % Duration.perMilli = 0 := by
  have hdue : p.due timeout % Duration.perMilli = 0 := Time.whole_wakeUp haccepted _
  rw [outcome_eq]
  split
  · rename_i after e hends
    unfold endOrDue
    split
    · have hafter : after % Duration.perMilli = 0 := hpeer.handshake (after, e) hends
      rw [Nat.add_mod, haccepted, hafter]
      rfl
    · exact hdue
  · exact hdue

end PendingHandshake

namespace Admission

open PendingHandshake

variable {timeout : Duration} {start : Time} {peers : List Peer} {a b : Admission}

/-! ## What a step does -/

theorem acceptance?_eq_some {t : Time} {p : Peer} {rest : List Peer} :
    a.acceptance? = some (t, p, rest) ↔
      a.waiting = p :: rest ∧ a.pending.length < maxPending ∧ t = max a.now p.arrival := by
  unfold acceptance?
  split
  · rename_i hnil
    simp [hnil]
  · rename_i q qs hcons
    rw [hcons]
    split
    · rename_i hroom
      simp only [Option.some.injEq, Prod.mk.injEq, List.cons.injEq]
      constructor
      · rintro ⟨rfl, rfl, rfl⟩
        exact ⟨⟨rfl, rfl⟩, hroom, rfl⟩
      · rintro ⟨⟨rfl, rfl⟩, -, rfl⟩
        exact ⟨rfl, rfl, rfl⟩
    · rename_i hfull
      exact ⟨nofun, fun h => absurd h.2.1 hfull⟩

/-- Nobody is accepted if nobody waits, or if there is no room. -/
theorem acceptance?_eq_none :
    a.acceptance? = none ↔ a.waiting = [] ∨ maxPending ≤ a.pending.length := by
  unfold acceptance?
  split
  · rename_i hnil
    simp [hnil]
  · rename_i q qs hcons
    rw [hcons]
    split
    · rename_i hroom
      exact ⟨nofun, fun h => h.elim nofun fun hfull => absurd hroom (Nat.not_lt.2 hfull)⟩
    · rename_i hfull
      exact ⟨fun _ => Or.inr (Nat.not_lt.1 hfull), fun _ => rfl⟩

/-- The first handshake to end, in its place among the others, ends before none of them. -/
theorem firstEnd?_eq_some {ps : List PendingHandshake} {f : FirstEnd}
    (h : firstEnd? timeout ps = some f) : ps = f.before ++ f.handshake :: f.after ∧
      f.handshake.outcome timeout = (f.time, f.outcome) ∧
      ∀ p ∈ ps, f.time ≤ (p.outcome timeout).1 := by
  induction ps generalizing f with
  | nil => cases h
  | cons p ps ih =>
    simp only [firstEnd?] at h
    split at h
    · rename_i hnone
      obtain rfl := Option.some.inj h
      refine ⟨rfl, rfl, fun q hq => ?_⟩
      cases ps with
      | nil =>
        obtain rfl := List.mem_singleton.1 hq
        exact le_rfl
      | cons r rs =>
        simp only [firstEnd?] at hnone
        split at hnone
        · cases hnone
        · split at hnone <;> cases hnone
    · rename_i g hg
      obtain ⟨hsplit, houtcome, hleast⟩ := ih hg
      split at h
      · rename_i hle
        obtain rfl := Option.some.inj h
        refine ⟨rfl, rfl, fun q hq => ?_⟩
        rcases List.mem_cons.1 hq with rfl | hq
        · exact le_rfl
        · exact hle.trans (hleast q hq)
      · rename_i hlt
        obtain rfl := Option.some.inj h
        refine ⟨congrArg (p :: ·) hsplit, houtcome, fun q hq => ?_⟩
        rcases List.mem_cons.1 hq with rfl | hq
        · exact (Nat.not_le.1 hlt).le
        · exact hleast q hq

theorem firstEnd?_eq_none {ps : List PendingHandshake} : firstEnd? timeout ps = none ↔ ps = [] := by
  cases ps with
  | nil => exact ⟨fun _ => rfl, fun _ => rfl⟩
  | cons p ps =>
    refine ⟨fun h => ?_, nofun⟩
    simp only [firstEnd?] at h
    split at h
    · cases h
    · split at h <;> cases h

/-- **What a step does**: it accepts the next peer, if there is room and no handshake ends before, or it
ends the handshake that is the first to end. -/
theorem step_cases (h : a.step? timeout = some b) :
    (∃ p rest, a.waiting = p :: rest ∧ a.pending.length < maxPending ∧
      (∀ x ∈ a.pending, max a.now p.arrival ≤ max a.now (x.outcome timeout).1) ∧
      b = a.accept (max a.now p.arrival) p rest) ∨
    ∃ f, firstEnd? timeout a.pending = some f ∧
      (∀ p ∈ a.waiting.head?, a.pending.length < maxPending → max a.now f.time < max a.now p.arrival) ∧
      b = a.finish f := by
  unfold step? at h
  split at h
  · rename_i t p rest f haccept hfirst
    obtain ⟨hwaiting, hroom, rfl⟩ := acceptance?_eq_some.1 haccept
    split at h
    · rename_i hle
      refine Or.inl ⟨p, rest, hwaiting, hroom, fun x hx => ?_, (Option.some.inj h).symm⟩
      exact hle.trans (max_le_max le_rfl ((firstEnd?_eq_some hfirst).2.2 x hx))
    · rename_i hlt
      refine Or.inr ⟨f, hfirst, fun q hq _ => ?_, (Option.some.inj h).symm⟩
      rw [hwaiting] at hq
      obtain rfl := Option.some.inj hq
      exact Nat.not_le.1 hlt
  · rename_i t p rest haccept hnone
    obtain ⟨hwaiting, hroom, rfl⟩ := acceptance?_eq_some.1 haccept
    have hempty := firstEnd?_eq_none.1 hnone
    refine Or.inl ⟨p, rest, hwaiting, hroom, fun x hx => ?_, (Option.some.inj h).symm⟩
    rw [hempty] at hx
    cases hx
  · rename_i f hnone hfirst
    refine Or.inr ⟨f, hfirst, fun q hq hroom => ?_, (Option.some.inj h).symm⟩
    rcases acceptance?_eq_none.1 hnone with hnobody | hfull
    · rw [hnobody] at hq
      cases hq
    · exact absurd hroom (Nat.not_lt.2 hfull)
  · cases h

/-- Nothing is left to do just if nobody is on the way in. -/
theorem step?_eq_none (h : a.step? timeout = none) : a.waiting = [] ∧ a.pending = [] := by
  unfold step? at h
  split at h
  · split at h <;> cases h
  · cases h
  · cases h
  · rename_i haccept hfirst
    have hpending := firstEnd?_eq_none.1 hfirst
    refine ⟨(acceptance?_eq_none.1 haccept).resolve_right fun hfull => ?_, hpending⟩
    rw [hpending] at hfull
    exact absurd hfull (by decide)

/-! ## The course of an admission -/

/-- When the last of some peers was accepted, or else when it all began. -/
def lastAccepted (start : Time) (l : List PendingHandshake) : Time :=
  (l.getLast?.map (·.accepted)).getD start

/-- How many of some handshakes are still under way after a time. -/
def inFlight (timeout : Duration) (l : List PendingHandshake) (t : Time) : Nat :=
  l.countP fun x => t < (x.outcome timeout).1

/-- The times at which a peer can be accepted after others: not before it arrives, not before they are
accepted, and only if there is room. -/
def openings (timeout : Duration) (start : Time) (l : List PendingHandshake) (p : Peer) : Set Time :=
  {t | max (lastAccepted start l) p.arrival ≤ t ∧ inFlight timeout l t < maxPending}

/-- Everybody was accepted as soon as possible. -/
def Prompt (timeout : Duration) (start : Time) (accepted : List PendingHandshake) : Prop :=
  ∀ l x r, accepted = l ++ x :: r → IsLeast (openings timeout start l x.peer) x.accepted

theorem prompt_nil : Prompt timeout start [] := fun l x r h => by simp at h

theorem prompt_concat {l : List PendingHandshake} {x : PendingHandshake}
    (hl : Prompt timeout start l) (hx : IsLeast (openings timeout start l x.peer) x.accepted) :
    Prompt timeout start (l ++ [x]) := by
  intro l' y r h
  rcases List.eq_nil_or_concat r with rfl | ⟨r', z, rfl⟩
  · obtain ⟨rfl, hy⟩ := List.append_inj' h rfl
    obtain rfl := List.singleton_inj.1 hy
    exact hx
  · rw [List.concat_eq_append, ← List.cons_append, ← List.append_assoc] at h
    exact hl l' y r' (List.append_inj' h rfl).1

theorem prompt_of_append {l r : List PendingHandshake} (h : Prompt timeout start (l ++ r)) :
    Prompt timeout start l :=
  fun l' x r' hl => h l' x (r' ++ r) (by rw [hl, List.append_assoc]; rfl)

/-- The course of an admission so far: who was accepted, in this order, and whose handshakes have ended, in
this order. -/
structure Course (timeout : Duration) (start : Time) (peers : List Peer) (a : Admission)
    (accepted ended : List PendingHandshake) : Prop where
  /-- Nobody is lost on the way in, and nobody overtakes. -/
  everyone : accepted.map (·.peer) ++ a.waiting = peers
  order : a.pending.Sublist accepted
  /-- Every handshake is under way or has ended, and that once. -/
  once : (a.pending ++ ended).Perm accepted
  room : a.pending.length ≤ maxPending
  prompt : Prompt timeout start accepted
  begun : lastAccepted start accepted ≤ a.now
  ahead : ∀ x ∈ a.pending, a.now ≤ (x.outcome timeout).1
  past : ∀ x ∈ ended, (x.outcome timeout).1 ≤ a.now
  secured : a.secured = ended.filterMap (·.connection? timeout)
  /-- Whoever still waits has found no opening so far. -/
  patient : ∀ p ∈ a.waiting.head?, ∀ t, max (lastAccepted start accepted) p.arrival ≤ t → t < a.now →
    maxPending ≤ inFlight timeout accepted t

/-- Before anything happens. -/
theorem Course.begin (timeout : Duration) (start : Time) (peers : List Peer) :
    Course timeout start peers { now := start, waiting := peers } [] [] where
  everyone := rfl
  order := .refl _
  once := .refl _
  room := Nat.zero_le _
  prompt := prompt_nil
  begun := le_rfl
  ahead := nofun
  past := nofun
  secured := rfl
  patient _ _ _ hle hlt := absurd ((le_max_left _ _).trans hle) (Nat.not_le.2 hlt)

variable {accepted ended : List PendingHandshake}

/-- Only handshakes that are under way are in flight from now on. -/
theorem Course.inFlight_le (h : Course timeout start peers a accepted ended) {t : Time} (ht : a.now ≤ t) :
    inFlight timeout accepted t ≤ a.pending.length := by
  have hended : ended.countP (fun x => decide (t < (x.outcome timeout).1)) = 0 :=
    List.countP_eq_zero.2 fun x hx => by
      simpa using (h.past x hx).trans ht
  rw [inFlight, ← h.once.countP_eq, List.countP_append, hended, Nat.add_zero]
  exact List.countP_le_length

/-- Somebody is accepted. -/
theorem Course.accepts (h : Course timeout start peers a accepted ended) {p : Peer} {rest : List Peer}
    (hwaiting : a.waiting = p :: rest) (hroom : a.pending.length < maxPending)
    (hfirst : ∀ x ∈ a.pending, max a.now p.arrival ≤ max a.now (x.outcome timeout).1) :
    Course timeout start peers (a.accept (max a.now p.arrival) p rest)
      (accepted ++ [⟨p, max a.now p.arrival⟩]) ended where
  everyone := by
    rw [← h.everyone, hwaiting, List.map_append, List.append_assoc]
    rfl
  order := h.order.append (.refl _)
  once := by
    refine List.Perm.trans ?_ (h.once.append_right _)
    rw [Admission.accept, List.append_assoc, List.append_assoc]
    exact List.perm_append_comm.append_left _
  room := by
    rw [accept, List.length_append, List.length_singleton]
    exact hroom
  prompt := by
    refine prompt_concat h.prompt ⟨⟨max_le_max h.begun le_rfl, ?_⟩, ?_⟩
    · exact (h.inFlight_le (le_max_left _ _)).trans_lt hroom
    · rintro t ⟨hle, hopen⟩
      by_contra hlt
      have hnow : t < a.now :=
        (lt_max_iff.1 (Nat.not_le.1 hlt)).resolve_right (Nat.not_lt.2 ((le_max_right _ _).trans hle))
      exact absurd hopen (Nat.not_lt.2 (h.patient p (by rw [hwaiting]; rfl) t hle hnow))
  begun := by
    rw [lastAccepted, List.getLast?_concat]
    exact le_rfl
  ahead x hx := by
    rcases List.mem_append.1 hx with hx | hx
    · exact (hfirst x hx).trans (max_le (h.ahead x hx) le_rfl)
    · rw [List.mem_singleton.1 hx]
      exact (outcome_between timeout ⟨p, _⟩).1
  past x hx := (h.past x hx).trans (le_max_left _ _)
  secured := h.secured
  patient q _ t hle hlt := by
    rw [lastAccepted, List.getLast?_concat] at hle
    exact absurd ((le_max_left _ _).trans hle) (Nat.not_le.2 hlt)

/-- A handshake ends. -/
theorem Course.finishes (h : Course timeout start peers a accepted ended) {f : FirstEnd}
    (hfirst : firstEnd? timeout a.pending = some f)
    (hbefore : ∀ p ∈ a.waiting.head?, a.pending.length < maxPending →
      max a.now f.time < max a.now p.arrival) :
    Course timeout start peers (a.finish f) accepted (ended ++ [f.handshake]) := by
  obtain ⟨hsplit, houtcome, hleast⟩ := firstEnd?_eq_some hfirst
  have hmem : f.handshake ∈ a.pending := by
    rw [hsplit]
    exact List.mem_append_right _ List.mem_cons_self
  have hrest : (f.before ++ f.after).Sublist a.pending := by
    rw [hsplit]
    exact (List.Sublist.refl _).append (List.sublist_cons_self _ _)
  have hnow : max a.now f.time = f.time := by
    refine max_eq_right ?_
    have hopen := h.ahead _ hmem
    rwa [houtcome] at hopen
  exact {
    everyone := h.everyone
    order := hrest.trans h.order
    once := by
      refine List.Perm.trans ?_ h.once
      rw [hsplit, finish]
      refine List.Perm.trans ?_ (List.perm_middle.symm.append_right ended)
      rw [← List.append_assoc]
      exact List.perm_append_singleton _ _
    room := hrest.length_le.trans h.room
    prompt := h.prompt
    begun := h.begun.trans (le_max_left _ _)
    ahead := fun x hx => by
      rw [finish, hnow]
      exact hleast x (hrest.mem hx)
    past := fun x hx => by
      rcases List.mem_append.1 hx with hx | hx
      · exact (h.past x hx).trans (le_max_left _ _)
      · obtain rfl := List.mem_singleton.1 hx
        rw [houtcome]
        exact le_max_right _ _
    secured := by
      have hlast : [f.handshake].filterMap (·.connection? timeout) =
          (f.handshake.connection? timeout).toList := by
        rw [List.filterMap_cons, List.filterMap_nil]
        cases f.handshake.connection? timeout <;> rfl
      rw [List.filterMap_append, ← h.secured, hlast, toList_connection?, houtcome, finish, hnow]
    patient := fun p hp t hle hlt => by
      rw [finish, hnow] at hlt
      rcases Nat.lt_or_ge t a.now with hbefore_now | hsince
      · exact h.patient p hp t hle hbefore_now
      · have hfull : maxPending ≤ a.pending.length := by
          by_contra hroom
          have harrival := hbefore p hp (Nat.not_le.1 hroom)
          rw [hnow] at harrival
          have hnotyet : f.time < p.arrival :=
            (lt_max_iff.1 harrival).resolve_left (Nat.not_lt.2 (hsince.trans hlt.le))
          exact absurd ((le_max_right _ _).trans hle) (Nat.not_le.2 (hlt.trans hnotyet))
        have hall : a.pending.countP (fun x => decide (t < (x.outcome timeout).1)) =
            a.pending.length :=
          List.countP_eq_length.2 fun x hx => decide_eq_true (hlt.trans_le (hleast x hx))
        exact hfull.trans (hall.ge.trans h.order.countP_le) }

/-- **One step** continues the course of an admission. -/
theorem Course.step (h : Course timeout start peers a accepted ended) (hs : a.step? timeout = some b) :
    ∃ accepted' ended', Course timeout start peers b accepted' ended' := by
  rcases step_cases hs with ⟨p, rest, hwaiting, hroom, hfirst, rfl⟩ | ⟨f, hfirst, hbefore, rfl⟩
  · exact ⟨_, _, h.accepts hwaiting hroom hfirst⟩
  · exact ⟨_, _, h.finishes hfirst hbefore⟩

/-- An admission that another one comes to after some steps. -/
def Reaches (timeout : Duration) : Admission → Admission → Prop :=
  Relation.ReflTransGen fun a b => a.step? timeout = some b

/-- **Any number of steps** have a course. -/
theorem Course.of_reaches (h : Reaches timeout { now := start, waiting := peers } b) :
    ∃ accepted ended, Course timeout start peers b accepted ended := by
  induction h with
  | refl => exact ⟨[], [], .begin timeout start peers⟩
  | tail _ hstep ih =>
    obtain ⟨accepted, ended, hcourse⟩ := ih
    exact hcourse.step hstep

/-- A run goes on until nothing is left to do. -/
theorem reaches_run (timeout : Duration) (a : Admission) :
    Reaches timeout a (a.run timeout) ∧ (a.run timeout).step? timeout = none := by
  fun_induction run timeout a with
  | case1 a b hstep ih => exact ⟨.head hstep ih.1, ih.2⟩
  | case2 a hnone => exact ⟨.refl, hnone⟩

/-! ## Who waits how long -/

/-- **Nobody waits longer than until the handshakes before are due**, however many of them fail or stall. -/
theorem accepted_le (h : Prompt timeout start accepted) {l r : List PendingHandshake}
    {x : PendingHandshake} (hx : accepted = l ++ x :: r) {t : Time} (hstart : start ≤ t)
    (harrival : x.peer.arrival ≤ t) (hdue : ∀ y ∈ l, y.due timeout ≤ t) : x.accepted ≤ t := by
  refine (h l x r hx).2 ⟨max_le ?_ harrival, ?_⟩
  · unfold lastAccepted
    cases hlast : l.getLast? with
    | none => exact hstart
    | some y =>
      exact (accepted_le_due timeout y).trans (hdue y (List.mem_of_getLast? hlast))
  · have hnone : inFlight timeout l t = 0 :=
      List.countP_eq_zero.2 fun y hy => by
        simpa using (outcome_between timeout y).2.trans (hdue y hy)
    rw [hnone]
    decide

/-- **When somebody is accepted**: at the start or when the peer before is, on arrival, or when a handshake
ends. -/
theorem accepted_cases (h : Prompt timeout start accepted) {l r : List PendingHandshake}
    {x : PendingHandshake} (hx : accepted = l ++ x :: r) :
    x.accepted = lastAccepted start l ∨ x.accepted = x.peer.arrival ∨
      ∃ y ∈ l, x.accepted = (y.outcome timeout).1 := by
  obtain ⟨⟨hle, hroom⟩, hleast⟩ := h l x r hx
  rcases hle.eq_or_lt with heq | hlt
  · rcases max_choice (lastAccepted start l) x.peer.arrival with hmax | hmax
    · exact Or.inl (heq.symm.trans hmax)
    · exact Or.inr (Or.inl (heq.symm.trans hmax))
  · refine Or.inr (Or.inr ?_)
    by_contra! hnone
    -- nothing has ended since one instant before, so there was room by then
    have hsub : ∀ a b : Nat, a ≠ b → (a - 1 < b ↔ a < b) := by omega
    have hsame : inFlight timeout l (x.accepted - 1) = inFlight timeout l x.accepted := by
      refine List.countP_congr fun y hy => ?_
      rw [decide_eq_true_iff, decide_eq_true_iff]
      exact hsub _ _ (hnone y hy)
    have hbefore : x.accepted ≤ x.accepted - 1 :=
      hleast ⟨Nat.le_sub_one_of_lt hlt, by rw [hsame]; exact hroom⟩
    exact absurd hbefore (Nat.not_le.2 (Nat.sub_one_lt (Nat.ne_zero_of_lt hlt)))

/-- **If everybody does everything at whole milliseconds**, everybody is accepted at one. -/
theorem whole_accepted (h : Prompt timeout start accepted) (hstart : start % Duration.perMilli = 0)
    (hpeers : ∀ x ∈ accepted, x.peer.Whole) : ∀ x ∈ accepted, x.accepted % Duration.perMilli = 0 := by
  induction accepted using List.reverseRecOn with
  | nil => exact nofun
  | append_singleton l x ih =>
    have hl := ih (prompt_of_append h) fun y hy => hpeers y (List.mem_append_left _ hy)
    intro z hz
    have hwhole := hpeers z hz
    rcases List.mem_append.1 hz with hz | hz
    · exact hl z hz
    · obtain rfl := List.mem_singleton.1 hz
      rcases accepted_cases h rfl with hlast | harrival | ⟨y, hy, hends⟩
      · rw [hlast, lastAccepted]
        cases hlast? : l.getLast? with
        | none => exact hstart
        | some y => exact hl y (List.mem_of_getLast? hlast?)
      · rw [harrival]
        exact hwhole.arrival
      · rw [hends]
        exact whole_outcome (hl y hy) (hpeers y (List.mem_append_left _ hy))

/-! ## All in all -/

/-- **The connections that come in are those of the peers who complete their handshake in time.**

Every peer is accepted once, in the order of arrival, as soon as fewer than `maxPending` of the handshakes
before are under way, and so not later than when all of them are due. Its handshake ends once, in some
order. For each handshake that succeeds by the tick of the timeout a connection is ready, then and with its
own address, and for no other; the tick leaves a handshake at least its timeout, and where everything is done
at whole milliseconds these are the handshakes that succeed within the timeout. What comes in to the server
are the addresses of just these connections, in the order in which their handshakes end, and never an error.
At no time are there more handshakes than there may be. -/
theorem run_admits (timeout : Duration) (start : Time) (peers : List Peer) :
    ∃ accepted ended : List PendingHandshake,
      (accepted.map (·.peer) = peers ∧ Prompt timeout start accepted ∧
        ∀ l x r, accepted = l ++ x :: r → ∀ t, start ≤ t → x.peer.arrival ≤ t →
          (∀ y ∈ l, y.due timeout ≤ t) → x.accepted ≤ t) ∧
      (ended.Perm accepted ∧
        (run timeout { now := start, waiting := peers }).secured = ended.filterMap (·.connection? timeout) ∧
        (run timeout { now := start, waiting := peers }).incoming =
          (ended.filterMap (·.connection? timeout)).map fun c => .ok c.2) ∧
      (∀ (x : PendingHandshake) c, x.connection? timeout = some c ↔
        ∃ after, x.peer.handshake = .succeeds after ∧ x.accepted + after ≤ x.due timeout ∧
          c = (x.accepted + after, x.peer.remote)) ∧
      (∀ x : PendingHandshake, x.accepted + timeout < Time.horizon → x.accepted + timeout ≤ x.due timeout) ∧
      (start % Duration.perMilli = 0 → timeout % Duration.perMilli = 0 → (∀ p ∈ peers, p.Whole) →
        ∀ x ∈ accepted, x.accepted + timeout < Time.horizon → ∀ c, x.connection? timeout = some c ↔
          ∃ after, x.peer.handshake = .succeeds after ∧ after ≤ timeout ∧
            c = (x.accepted + after, x.peer.remote)) ∧
      (∀ e, Except.error e ∉ (run timeout { now := start, waiting := peers }).incoming) ∧
      ∀ b, Reaches timeout { now := start, waiting := peers } b → b.pending.length ≤ maxPending := by
  obtain ⟨hreaches, hdone⟩ := reaches_run timeout { now := start, waiting := peers }
  obtain ⟨accepted, ended, hcourse⟩ := Course.of_reaches hreaches
  obtain ⟨hwaiting, hpending⟩ := step?_eq_none hdone
  have heveryone := hcourse.everyone
  rw [hwaiting, List.append_nil] at heveryone
  have honce := hcourse.once
  rw [hpending, List.nil_append] at honce
  refine ⟨accepted, ended,
    ⟨heveryone, hcourse.prompt, fun _ _ _ hx _ => accepted_le hcourse.prompt hx⟩,
    ⟨honce, hcourse.secured, congrArg (List.map _) hcourse.secured⟩, fun _ _ => connection?_eq_some, fun _ => le_due_of_representable, ?_, ?_, ?_⟩
  · intro hstart htimeout hpeers x hx hrepresentable c
    have hwhole := whole_accepted hcourse.prompt hstart (fun y hy => hpeers _ (by
      rw [← heveryone]
      exact List.mem_map_of_mem hy)) x hx
    exact connection?_of_whole hrepresentable hwhole htimeout
  · intro e he
    obtain ⟨_, _, h⟩ := List.mem_map.1 he
    cases h
  · intro b hb
    obtain ⟨_, _, h⟩ := Course.of_reaches hb
    exact h.room

end Admission
end HealthService
