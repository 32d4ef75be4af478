import HealthService.Check.Handles
import HealthService.Proofs.Contexts.Forest

/-!
# Who cancels whom

A sequence of operations says by itself how the contexts hang together: which handle was derived or
copied from which (`ContextOp.origins`), and on which handles somebody has called for cancellation,
directly or through a guard (`ContextOp.Cancels`).  `ContextOp.Governs` is the order between handles
that this makes: a handle governs itself, all copies of its context, and everything derived from one
of these.  None of it looks at the forest of nodes.

* `Faithful` — the invariant of every sequence of operations: the forest is the one that the
  operations tell of (`faithful_of_run?`).
* `governs_iff` — a handle governs another one iff its node lies in the lineage of the other's.
* `canceled_iff_governed` — **a context is cancelled iff a handle that governs it was cancelled**,
  whatever has become of the handles in between.
-/

namespace HealthService
namespace ContextOp

/-! ## What the operations tell -/

/-- How a handle came to be. -/
inductive Origin where
  | root
  | derived (parent : Nat)
  | copied (original : Nat)
  deriving DecidableEq, Repr

/-- How the handle came to be that an operation makes, if it makes one. -/
def origin? : ContextOp → Option Origin
  | .background => some .root
  | .child i | .withTimeout i _ => some (.derived i)
  | .clone i => some (.copied i)
  | _ => none

/-- How all handles came to be, in their order. -/
def origins (ops : List ContextOp) : List Origin := ops.filterMap origin?

/-- The handle from which an operation takes a guard, if it takes one. -/
def guardedHandle? : ContextOp → Option Nat
  | .cancelOnDrop i => some i
  | _ => none

/-- The handles from which all guards were taken, in the order of the guards. -/
def guardedHandles (ops : List ContextOp) : List Nat := ops.filterMap guardedHandle?

/-- An operation that comes after others cancels a handle: by name, or by letting go a guard. -/
def Hits (before : List ContextOp) : ContextOp → Nat → Prop
  | .cancel j, i => j = i
  | .dropGuard g, i => (guardedHandles before)[g]? = some i
  | _, _ => False

/-- Some operation of a sequence cancels a handle. -/
def Cancels (ops : List ContextOp) (i : Nat) : Prop :=
  ∃ before op after, ops = before ++ op :: after ∧ Hits before op i

/-- Two handles on the same context: one was copied from the other, perhaps by way of third ones. -/
def Copies (os : List Origin) : Nat → Nat → Prop :=
  Relation.EqvGen fun j k => os[k]? = some (.copied j)

/-- `Governs os i k`: handle `k` is on the same context as handle `i`, or on one that was derived
from it, however indirectly. -/
inductive Governs (os : List Origin) (i : Nat) : Nat → Prop
  | self : Governs os i i
  | copied {j k : Nat} : os[k]? = some (.copied j) → Governs os i j → Governs os i k
  | original {j k : Nat} : os[j]? = some (.copied k) → Governs os i j → Governs os i k
  | derived {j k : Nat} : os[k]? = some (.derived j) → Governs os i j → Governs os i k

theorem Governs.trans {os : List Origin} {i j k : Nat} (hij : Governs os i j)
    (hjk : Governs os j k) : Governs os i k := by
  induction hjk with
  | self => exact hij
  | copied h _ ih => exact .copied h ih
  | original h _ ih => exact .original h ih
  | derived h _ ih => exact .derived h ih

theorem governs_of_copies {os : List Origin} {j k : Nat} (h : Copies os j k) :
    Governs os j k ∧ Governs os k j := by
  induction h with
  | rel j k h => exact ⟨.copied h .self, .original h .self⟩
  | refl j => exact ⟨.self, .self⟩
  | symm j k _ ih => exact ih.symm
  | trans j k l _ _ ih₁ ih₂ => exact ⟨ih₁.1.trans ih₂.1, ih₂.2.trans ih₁.2⟩

theorem origins_append (ops : List ContextOp) (op : ContextOp) :
    origins (ops ++ [op]) = origins ops ++ op.origin?.toList := by
  rw [origins, List.filterMap_append]
  cases h : op.origin? <;> simp [origins, h]

theorem guardedHandles_append (ops : List ContextOp) (op : ContextOp) :
    guardedHandles (ops ++ [op]) = guardedHandles ops ++ op.guardedHandle?.toList := by
  rw [guardedHandles, List.filterMap_append]
  cases h : op.guardedHandle? <;> simp [guardedHandles, h]

theorem not_cancels_nil (i : Nat) : ¬ Cancels [] i := by
  rintro ⟨before, op, after, h, -⟩
  simp at h

/-- What a sequence cancels, and then its last operation. -/
theorem cancels_append {ops : List ContextOp} {op : ContextOp} {i : Nat} :
    Cancels (ops ++ [op]) i ↔ Cancels ops i ∨ Hits ops op i := by
  constructor
  · rintro ⟨before, x, after, h, hx⟩
    rcases List.eq_nil_or_concat after with rfl | ⟨init, last, rfl⟩
    · obtain ⟨rfl, hop⟩ := List.append_inj' h rfl
      rw [List.singleton_inj.1 hop]
      exact Or.inr hx
    · have h' : ops ++ [op] = (before ++ x :: init) ++ [last] := by simpa using h
      exact Or.inl ⟨before, x, init, (List.append_inj' h' rfl).1, hx⟩
  · rintro (⟨before, x, after, rfl, hx⟩ | h)
    · exact ⟨before, x, after ++ [op], by simp, hx⟩
    · exact ⟨ops, op, [], rfl, h⟩

end ContextOp

open ContextOp

/-! ## The shape of the forest -/

theorem getElem?_append_of_eq_some {α : Type} {l : List α} {i : Nat} {a : α} (h : l[i]? = some a)
    (r : List α) : (l ++ r)[i]? = some a := by
  rw [List.getElem?_append_left (List.getElem?_eq_some_iff.1 h).1, h]

/-- What is added at the end of a list is all that is new in it. -/
theorem getElem?_append_singleton {α : Type} {l : List α} {a b : α} {i : Nat}
    (h : (l ++ [a])[i]? = some b) : l[i]? = some b ∨ (i = l.length ∧ b = a) := by
  have hlt := (List.getElem?_eq_some_iff.1 h).1
  rw [List.length_append, List.length_singleton] at hlt
  rcases Nat.lt_succ_iff_lt_or_eq.1 hlt with hi | rfl
  · exact Or.inl (by rwa [List.getElem?_append_left hi] at h)
  · exact Or.inr ⟨rfl, by simpa using h.symm⟩

theorem map_modify_of_eq {α β : Type} (k : α → β) (f : α → α) (hf : ∀ a, k (f a) = k a)
    (l : List α) (i : Nat) : (l.modify i f).map k = l.map k := by
  refine List.ext_getElem? fun j => ?_
  rw [List.getElem?_map, List.getElem?_map, List.getElem?_modify]
  cases l[j]? with
  | none => rfl
  | some a =>
    by_cases hij : i = j
    · simp [hij, hf]
    · simp [hij]

/-- A handle of origin `o` on node `n` is where it belongs, given the nodes `ns` of the earlier
ones. -/
def Placed (cs : Contexts) (ns : List Nat) (n : Nat) : Origin → Prop
  | .root => cs.parent? n = none
  | .derived i => ∃ p, ns[i]? = some p ∧ cs.parent? n = some p
  | .copied i => ns[i]? = some n

/-- The handles of some origins are on the nodes `ns` of a forest, and each node was made for one of
them. -/
structure Shape (os : List Origin) (cs : Contexts) (ns : List Nat) : Prop where
  length_eq : ns.length = os.length
  lt_length : ∀ {j n : Nat}, ns[j]? = some n → n < cs.nodes.length
  placed : ∀ {j n : Nat} {o : Origin}, os[j]? = some o → ns[j]? = some n →
    Placed cs (ns.take j) n o
  made : ∀ n < cs.nodes.length, ∃ f : Nat, ns[f]? = some n ∧
    (∀ i, os[f]? ≠ some (Origin.copied i)) ∧
    ∀ j : Nat, ns[j]? = some n → j = f ∨ ∃ i, os[j]? = some (Origin.copied i)

namespace Shape

variable {os : List Origin} {cs : Contexts} {ns : List Nat}

theorem node_of_origin (h : Shape os cs ns) {j : Nat} {o : Origin} (hj : os[j]? = some o) :
    ∃ n, ns[j]? = some n := by
  have hlt := (List.getElem?_eq_some_iff.1 hj).1
  rw [← h.length_eq] at hlt
  exact ⟨_, List.getElem?_eq_getElem hlt⟩

theorem copied (h : Shape os cs ns) {i j : Nat} (hj : os[j]? = some (.copied i)) :
    i < j ∧ ns[i]? = ns[j]? := by
  obtain ⟨n, hn⟩ := h.node_of_origin hj
  have hi : (ns.take j)[i]? = some n := h.placed hj hn
  rw [List.getElem?_take] at hi
  split at hi
  · rename_i hlt
    exact ⟨hlt, hi.trans hn.symm⟩
  · cases hi

theorem derived (h : Shape os cs ns) {i j n : Nat} (hj : os[j]? = some (.derived i))
    (hn : ns[j]? = some n) : ∃ p, ns[i]? = some p ∧ cs.parent? n = some p := by
  obtain ⟨p, hi, hp⟩ := h.placed hj hn
  rw [List.getElem?_take] at hi
  split at hi
  · exact ⟨p, hi, hp⟩
  · cases hi

/-- Every handle is a copy of the one for which its node was made. -/
theorem copies_first (h : Shape os cs ns) {f n : Nat}
    (hf : ∀ j : Nat, ns[j]? = some n → j = f ∨ ∃ i, os[j]? = some (Origin.copied i)) {j : Nat}
    (hj : ns[j]? = some n) : Copies os f j := by
  induction j using Nat.strong_induction_on with
  | _ j ih =>
    rcases hf j hj with rfl | ⟨i, hi⟩
    · exact .refl _
    · obtain ⟨hlt, hsame⟩ := h.copied hi
      exact .trans _ _ _ (ih i hlt (hsame.trans hj)) (.rel _ _ hi)

theorem copies_of_node_eq (h : Shape os cs ns) {i j n : Nat} (hi : ns[i]? = some n)
    (hj : ns[j]? = some n) : Copies os i j := by
  obtain ⟨f, -, -, hf⟩ := h.made n (h.lt_length hi)
  exact .trans _ _ _ (.symm _ _ (h.copies_first hf hi)) (h.copies_first hf hj)

theorem mem_lineage_of_governs (h : Shape os cs ns) (hwf : cs.WellFormed) {i j m n : Nat}
    (hij : Governs os i j) (hi : ns[i]? = some m) (hj : ns[j]? = some n) : m ∈ cs.lineage n := by
  induction hij generalizing n with
  | self =>
    obtain rfl := Option.some.inj (hi.symm.trans hj)
    exact Contexts.self_mem_lineage cs m
  | copied hk _ ih => exact ih ((h.copied hk).2.trans hj)
  | original hk _ ih => exact ih ((h.copied hk).2.symm.trans hj)
  | derived hk _ ih =>
    obtain ⟨p, hp, hpar⟩ := h.derived hk hj
    exact (Contexts.mem_lineage_iff hwf).2 (Or.inr ⟨p, hpar, ih hp⟩)

theorem governs_of_mem_lineage (h : Shape os cs ns) (hwf : cs.WellFormed) {i j m n : Nat}
    (hm : m ∈ cs.lineage n) (hi : ns[i]? = some m) (hj : ns[j]? = some n) : Governs os i j := by
  induction n using Nat.strong_induction_on generalizing j with
  | _ n ih =>
    rcases (Contexts.mem_lineage_iff hwf).1 hm with rfl | ⟨p, hp, hmp⟩
    · exact (governs_of_copies (h.copies_of_node_eq hi hj)).1
    · -- the handle for which the node was made hangs on a handle of the parent
      obtain ⟨f, hf, hnew, hrest⟩ := h.made n (h.lt_length hj)
      refine Governs.trans ?_ (governs_of_copies (h.copies_first hrest hj)).1
      obtain ⟨o, ho⟩ : ∃ o, os[f]? = some o := by
        have hlt := (List.getElem?_eq_some_iff.1 hf).1
        rw [h.length_eq] at hlt
        exact ⟨_, List.getElem?_eq_getElem hlt⟩
      cases o with
      | root => exact absurd ((h.placed ho hf).symm.trans hp) (by simp)
      | copied k => exact absurd ho (hnew k)
      | derived k =>
        obtain ⟨q, hq, hpar⟩ := h.derived ho hf
        obtain rfl := Option.some.inj (hp.symm.trans hpar)
        exact .derived ho (ih p (hwf.parent_lt hp) hmp hq)

/-- **A handle governs another one iff its node lies in the lineage of the other's.** -/
theorem governs_iff (h : Shape os cs ns) (hwf : cs.WellFormed) {i j m n : Nat}
    (hi : ns[i]? = some m) (hj : ns[j]? = some n) : Governs os i j ↔ m ∈ cs.lineage n :=
  ⟨fun hij => h.mem_lineage_of_governs hwf hij hi hj,
    fun hm => h.governs_of_mem_lineage hwf hm hi hj⟩

theorem empty : Shape [] {} [] where
  length_eq := rfl
  lt_length h := by simp at h
  placed h := by simp at h
  made n h := absurd h (Nat.not_lt_zero n)

/-- A forest that keeps its nodes and parents keeps its shape. -/
theorem congr (h : Shape os cs ns) {ds : Contexts} (hlen : ds.nodes.length = cs.nodes.length)
    (hpar : ∀ n, ds.parent? n = cs.parent? n) : Shape os ds ns where
  length_eq := h.length_eq
  lt_length hj := hlen ▸ h.lt_length hj
  placed {j n o} ho hn := by
    have := h.placed ho hn
    cases o <;> simpa only [Placed, hpar] using this
  made n hn := h.made n (hlen ▸ hn)

/-- A further handle, on a node that is new unless the handle is a copy. -/
theorem concat (h : Shape os cs ns) {ds : Contexts} {o : Origin} {n : Nat}
    (hpar : ∀ k < cs.nodes.length, ds.parent? k = cs.parent? k)
    (hlen : ∀ k, k < ds.nodes.length ↔ k < cs.nodes.length ∨ k = n)
    (ho : Placed ds ns n o) (hnew : (∃ i, o = .copied i) ↔ n < cs.nodes.length) :
    Shape (os ++ [o]) ds (ns ++ [n]) where
  length_eq := by rw [List.length_append, List.length_append, h.length_eq]; rfl
  lt_length := by
    intro j m hj
    rcases getElem?_append_singleton hj with hj | ⟨-, rfl⟩
    · exact (hlen m).2 (Or.inl (h.lt_length hj))
    · exact (hlen m).2 (Or.inr rfl)
  placed := by
    intro j m q hq hj
    rcases getElem?_append_singleton hq with hq | ⟨rfl, rfl⟩
    · have hlt : j < ns.length := by
        rw [h.length_eq]
        exact (List.getElem?_eq_some_iff.1 hq).1
      rw [List.getElem?_append_left hlt] at hj
      rw [List.take_append_of_le_length hlt.le]
      have := h.placed hq hj
      cases q <;> simpa only [Placed, hpar m (h.lt_length hj)] using this
    · rw [← h.length_eq, List.getElem?_concat_length] at hj
      obtain rfl := Option.some.inj hj
      rwa [← h.length_eq, List.take_left]
  made := by
    intro k hk
    by_cases hold : k < cs.nodes.length
    · obtain ⟨f, hf, hfirst, hrest⟩ := h.made k hold
      refine ⟨f, getElem?_append_of_eq_some hf _, fun i hi => ?_, fun j hj => ?_⟩
      · rcases getElem?_append_singleton hi with hi | ⟨rfl, -⟩
        · exact hfirst i hi
        · rw [← h.length_eq] at hf
          simp at hf
      · rcases getElem?_append_singleton hj with hj | ⟨rfl, rfl⟩
        · exact (hrest j hj).imp id fun ⟨i, hi⟩ => ⟨i, getElem?_append_of_eq_some hi _⟩
        · obtain ⟨i, rfl⟩ := hnew.2 hold
          exact Or.inr ⟨i, by rw [h.length_eq, List.getElem?_concat_length]⟩
    · obtain rfl : k = n := ((hlen k).1 hk).resolve_left hold
      refine ⟨ns.length, by simp, fun i hi => ?_, fun j hj => ?_⟩
      · rw [h.length_eq, List.getElem?_concat_length] at hi
        exact hold (hnew.1 ⟨i, Option.some.inj hi⟩)
      · rcases getElem?_append_singleton hj with hj | ⟨hj, -⟩
        · exact absurd (h.lt_length hj) hold
        · exact Or.inl hj

end Shape

/-! ## The forest that the operations tell of -/

namespace Handles

/-- The nodes of all handles, dropped or not. -/
def nodes (s : Handles) : List Nat := s.handles.map fun h => h.context.node

/-- The nodes of all guards, dropped or not. -/
def guardNodes (s : Handles) : List Nat := s.guards.map Guard.node

theorem nodes_hold (s : Handles) (made : Contexts × Context) :
    (s.hold made).nodes = s.nodes ++ [made.2.node] := by
  simp [nodes, hold]

theorem nodes_of_context? {s : Handles} {i : Nat} {c : Context} (h : s.context? i = some c) :
    s.nodes[i]? = some c.node := by
  obtain ⟨x, hx, hc⟩ := Option.bind_eq_some_iff.1 h
  split at hc
  · cases hc
    rw [nodes, List.getElem?_map, hx]
    rfl
  · cases hc

theorem guardNodes_of_guarded? {s : Handles} {g n : Nat} (h : s.guarded? g = some n) :
    s.guardNodes[g]? = some n := by
  obtain ⟨x, hx, hn⟩ := Option.bind_eq_some_iff.1 h
  split at hn
  · cases hn
    rw [guardNodes, List.getElem?_map, hx]
    rfl
  · cases hn

end Handles

/-- The state after some operations is the one that they tell of. -/
structure Faithful (ops : List ContextOp) (s : Handles) : Prop where
  wellFormed : s.contexts.WellFormed
  shape : Shape (origins ops) s.contexts s.nodes
  guards : (guardedHandles ops).map (fun i => s.nodes[i]?) = s.guardNodes.map some
  canceled : ∀ n < s.contexts.nodes.length, s.contexts.isCanceled n = true ↔
    ∃ i m : Nat, Cancels ops i ∧ s.nodes[i]? = some m ∧ m ∈ s.contexts.lineage n
  node_of_cancels : ∀ {i : Nat}, Cancels ops i → ∃ n, s.nodes[i]? = some n

namespace Faithful

variable {ops : List ContextOp} {s t : Handles}

theorem empty : Faithful [] {} where
  wellFormed := Contexts.wellFormed_empty
  shape := Shape.empty
  guards := rfl
  canceled n h := absurd h (Nat.not_lt_zero n)
  node_of_cancels h := absurd h (not_cancels_nil _)

theorem node_of_guarded (h : Faithful ops s) {g i n : Nat} (hg : (guardedHandles ops)[g]? = some i)
    (hn : s.guardNodes[g]? = some n) : s.nodes[i]? = some n := by
  have := congrArg (fun l => l[g]?) h.guards
  simpa [hg, hn] using this

theorem handle_of_guarded (h : Faithful ops s) {g n : Nat} (hn : s.guardNodes[g]? = some n) :
    ∃ i, (guardedHandles ops)[g]? = some i ∧ s.nodes[i]? = some n := by
  have := congrArg (fun l => l[g]?) h.guards
  simp only [List.getElem?_map, hn, Option.map_some] at this
  obtain ⟨i, hi, hin⟩ := Option.map_eq_some_iff.1 this
  exact ⟨i, hi, hin⟩

/-- The guards stay where they are when a further handle comes. -/
theorem guards_append (h : Faithful ops s) (ms : List Nat) :
    (guardedHandles ops).map (fun i => (s.nodes ++ ms)[i]?) = s.guardNodes.map some := by
  rw [← h.guards]
  refine List.map_congr_left fun i hi => ?_
  have hmem : s.nodes[i]? ∈ s.guardNodes.map some := by
    rw [← h.guards]
    exact List.mem_map_of_mem hi
  obtain ⟨n, -, hn⟩ := List.mem_map.1 hmem
  rw [← hn, getElem?_append_of_eq_some hn.symm]

/-- What cancels nothing leaves open who has been cancelled. -/
theorem canceled_of_quiet (h : Faithful ops s) {op : ContextOp} (hop : ∀ i, ¬ Hits ops op i)
    (ms : List Nat) {n : Nat} (hn : n < s.contexts.nodes.length) :
    s.contexts.isCanceled n = true ↔ ∃ i m : Nat, Cancels (ops ++ [op]) i ∧
      (s.nodes ++ ms)[i]? = some m ∧ m ∈ s.contexts.lineage n := by
  rw [h.canceled n hn]
  constructor
  · rintro ⟨i, m, hc, hi, hm⟩
    exact ⟨i, m, cancels_append.2 (Or.inl hc), getElem?_append_of_eq_some hi ms, hm⟩
  · rintro ⟨i, m, hc, hi, hm⟩
    have hold : Cancels ops i := (cancels_append.1 hc).resolve_right (hop i)
    obtain ⟨m', hm'⟩ := h.node_of_cancels hold
    rw [getElem?_append_of_eq_some hm' ms] at hi
    exact ⟨i, m, hold, hm'.trans hi, hm⟩

theorem node_of_cancels_append (h : Faithful ops s) {op : ContextOp} (hop : ∀ i, ¬ Hits ops op i)
    (ms : List Nat) {i : Nat} (hc : Cancels (ops ++ [op]) i) :
    ∃ n, (s.nodes ++ ms)[i]? = some n := by
  obtain ⟨n, hn⟩ := h.node_of_cancels ((cancels_append.1 hc).resolve_right (hop i))
  exact ⟨n, getElem?_append_of_eq_some hn ms⟩

theorem quiet_of_origin? {op : ContextOp} {o : Origin} (h : op.origin? = some o) :
    op.guardedHandle? = none ∧ ∀ before i, ¬ Hits before op i := by
  cases op <;> simp_all [origin?, guardedHandle?, Hits]

/-- A context is made, or derived from another one. -/
theorem make (h : Faithful ops s) {op : ContextOp} {x : Contexts.Node} (d : Option Time)
    (hop : (op.origin? = some .root ∧ x = ⟨none, false⟩) ∨
      ∃ i p : Nat, op.origin? = some (.derived i) ∧ s.nodes[i]? = some p ∧
        x = ⟨some p, s.contexts.isCanceled p⟩) :
    Faithful (ops ++ [op]) (s.hold (⟨s.contexts.nodes ++ [x]⟩, ⟨s.contexts.nodes.length, d⟩)) := by
  set cs := s.contexts with hcs
  obtain ⟨o, ho, hfresh⟩ : ∃ o, op.origin? = some o ∧ ¬ ∃ i, o = Origin.copied i := by
    rcases hop with ⟨ho, -⟩ | ⟨i, p, ho, -⟩ <;> exact ⟨_, ho, fun ⟨_, hc⟩ => by cases hc⟩
  obtain ⟨hguard, hmiss⟩ := quiet_of_origin? ho
  have hpar : ∀ p, x.parent = some p → p < cs.nodes.length ∧
      (cs.isCanceled p = true → x.canceled = true) := by
    rcases hop with ⟨-, rfl⟩ | ⟨i, q, -, hq, rfl⟩
    · exact fun p hp => by cases hp
    · intro p hp
      cases hp
      exact ⟨h.shape.lt_length hq, fun hc => hc⟩
  have hplaced : Placed ⟨cs.nodes ++ [x]⟩ s.nodes cs.nodes.length o := by
    rcases hop with ⟨ho', rfl⟩ | ⟨i, q, ho', hq, rfl⟩ <;>
      obtain rfl := Option.some.inj (ho.symm.trans ho')
    · exact Contexts.parent?_append_new cs _
    · exact ⟨q, hq, Contexts.parent?_append_new cs _⟩
  constructor
  case wellFormed => exact Contexts.wellFormed_append h.wellFormed hpar
  case shape =>
    rw [Handles.nodes_hold, origins_append, ho]
    refine h.shape.concat (fun k hk => Contexts.parent?_append_old cs [x] hk) (fun k => ?_)
      hplaced ?_
    · show k < (cs.nodes ++ [x]).length ↔ _
      rw [List.length_append, List.length_singleton]
      exact Nat.lt_succ_iff_lt_or_eq
    · exact ⟨fun hc => absurd hc hfresh, fun hc => absurd hc (lt_irrefl _)⟩
  case guards =>
    rw [guardedHandles_append, hguard, Option.toList_none, List.append_nil, Handles.nodes_hold]
    exact h.guards_append _
  case canceled =>
    intro n hn
    rw [Handles.nodes_hold]
    change n < (cs.nodes ++ [x]).length at hn
    change Contexts.isCanceled ⟨cs.nodes ++ [x]⟩ n = true ↔ ∃ i m : Nat, Cancels (ops ++ [op]) i ∧
      (s.nodes ++ [cs.nodes.length])[i]? = some m ∧ m ∈ Contexts.lineage ⟨cs.nodes ++ [x]⟩ n
    rw [List.length_append, List.length_singleton] at hn
    rcases Nat.lt_succ_iff_lt_or_eq.1 hn with hold | rfl
    · rw [Contexts.isCanceled_append_old cs [x] hold, Contexts.lineage_append_old cs [x] hold]
      exact h.canceled_of_quiet (hmiss ops) _ hold
    · -- nobody has cancelled the new node itself
      have hsole : ∀ i : Nat, Cancels (ops ++ [op]) i →
          (s.nodes ++ [cs.nodes.length])[i]? ≠ some cs.nodes.length := by
        intro i hc hi
        obtain ⟨m, hm⟩ := h.node_of_cancels ((cancels_append.1 hc).resolve_right (hmiss ops i))
        rw [getElem?_append_of_eq_some hm] at hi
        cases hi
        exact absurd (h.shape.lt_length hm) (lt_irrefl _)
      rw [Contexts.isCanceled_append_new]
      rcases hop with ⟨-, rfl⟩ | ⟨i, q, -, hq, rfl⟩
      · rw [Contexts.lineage_append_root]
        refine ⟨fun hc => absurd hc (by simp), ?_⟩
        rintro ⟨i, m, hc, hi, hm⟩
        rw [List.mem_singleton] at hm
        exact absurd (hm ▸ hi) (hsole i hc)
      · have hqlt := h.shape.lt_length hq
        rw [Contexts.lineage_append_new cs _ hqlt]
        refine (h.canceled_of_quiet (hmiss ops) [cs.nodes.length] hqlt).trans ?_
        refine exists₂_congr fun i m => and_congr_right fun hc => and_congr_right fun hi => ?_
        rw [List.mem_cons]
        refine ⟨Or.inr, fun hm => hm.resolve_left ?_⟩
        rintro rfl
        exact hsole i hc hi
  case node_of_cancels =>
    intro i hc
    rw [Handles.nodes_hold]
    exact h.node_of_cancels_append (hmiss ops) _ hc

/-- A context is copied. -/
theorem copy (h : Faithful ops s) {i : Nat} {c : Context} (hc : s.context? i = some c) :
    Faithful (ops ++ [.clone i]) (s.hold (s.contexts, c)) := by
  have hi := Handles.nodes_of_context? hc
  have hmiss : ∀ before j, ¬ Hits before (.clone i) j := fun _ _ hj => hj
  have hlt := h.shape.lt_length hi
  constructor
  case wellFormed => exact h.wellFormed
  case shape =>
    rw [Handles.nodes_hold, origins_append]
    refine h.shape.concat (o := .copied i) (fun _ _ => rfl) (fun k => ?_) hi ?_
    · exact ⟨Or.inl, fun hk => hk.elim id fun hk => hk ▸ hlt⟩
    · exact ⟨fun _ => hlt, fun _ => ⟨i, rfl⟩⟩
  case guards =>
    rw [guardedHandles_append, Handles.nodes_hold]
    change _ = s.guardNodes.map some
    simpa [guardedHandle?] using h.guards_append [c.node]
  case canceled =>
    intro n hn
    rw [Handles.nodes_hold]
    exact h.canceled_of_quiet (hmiss ops) _ hn
  case node_of_cancels =>
    intro j hj
    rw [Handles.nodes_hold]
    exact h.node_of_cancels_append (hmiss ops) _ hj

/-- Somebody cancels the context of a handle. -/
theorem cancel (h : Faithful ops s) {op : ContextOp} {i m : Nat}
    (hop : op.origin? = none ∧ op.guardedHandle? = none) (hhit : ∀ j, Hits ops op j ↔ j = i)
    (hi : s.nodes[i]? = some m) (hcs : t.contexts = s.contexts.cancelNode m)
    (hns : t.nodes = s.nodes) (hgs : t.guardNodes = s.guardNodes) :
    Faithful (ops ++ [op]) t := by
  constructor
  case wellFormed =>
    rw [hcs]
    exact Contexts.wellFormed_cancelNode h.wellFormed m
  case shape =>
    rw [origins_append, hop.1, Option.toList_none, List.append_nil, hcs, hns]
    exact h.shape.congr (Contexts.length_cancelNode _ _) (Contexts.parent?_cancelNode _ _)
  case guards =>
    rw [guardedHandles_append, hop.2, Option.toList_none, List.append_nil, hns, hgs]
    exact h.guards
  case canceled =>
    intro n hn
    rw [hcs, Contexts.length_cancelNode] at hn
    rw [hcs, hns, Contexts.isCanceled_cancelNode h.wellFormed, h.canceled n hn,
      Contexts.lineage_cancelNode]
    constructor
    · rintro (⟨j, k, hc, hj, hk⟩ | ⟨-, hm⟩)
      · exact ⟨j, k, cancels_append.2 (Or.inl hc), hj, hk⟩
      · exact ⟨i, m, cancels_append.2 (Or.inr ((hhit i).2 rfl)), hi, hm⟩
    · rintro ⟨j, k, hc, hj, hk⟩
      rcases cancels_append.1 hc with hc | hc
      · exact Or.inl ⟨j, k, hc, hj, hk⟩
      · obtain rfl := (hhit j).1 hc
        cases hi.symm.trans hj
        exact Or.inr ⟨hn, hk⟩
  case node_of_cancels =>
    intro j hc
    rw [hns]
    rcases cancels_append.1 hc with hc | hc
    · exact h.node_of_cancels hc
    · exact ⟨m, (hhit j).1 hc ▸ hi⟩

/-- The contexts and the handles on them stay as they are. -/
theorem keep (h : Faithful ops s) {op : ContextOp} (hop : op.origin? = none)
    (hmiss : ∀ j, ¬ Hits ops op j) (hcs : t.contexts = s.contexts) (hns : t.nodes = s.nodes)
    (hgs : (guardedHandles (ops ++ [op])).map (fun i => s.nodes[i]?) = t.guardNodes.map some) :
    Faithful (ops ++ [op]) t := by
  constructor
  case wellFormed => exact hcs ▸ h.wellFormed
  case shape =>
    rw [origins_append, hop, Option.toList_none, List.append_nil, hcs, hns]
    exact h.shape
  case guards => rw [hns, hgs]
  case canceled =>
    intro n hn
    rw [hcs] at hn
    rw [hcs, hns]
    simpa using h.canceled_of_quiet hmiss [] hn
  case node_of_cancels =>
    intro j hc
    rw [hns]
    simpa using h.node_of_cancels_append hmiss [] hc

/-- **Every operation keeps the state faithful.** -/
theorem step (h : Faithful ops s) {op : ContextOp} (hst : s.step? op = some t) :
    Faithful (ops ++ [op]) t := by
  cases op with
  | background =>
    cases hst
    exact h.make _ (Or.inl ⟨rfl, rfl⟩)
  | child i =>
    obtain ⟨c, hc, rfl⟩ := Option.map_eq_some_iff.1 hst
    exact h.make _ (Or.inr ⟨i, c.node, rfl, Handles.nodes_of_context? hc, rfl⟩)
  | withTimeout i budget =>
    obtain ⟨c, hc, rfl⟩ := Option.map_eq_some_iff.1 hst
    exact h.make _ (Or.inr ⟨i, c.node, rfl, Handles.nodes_of_context? hc, rfl⟩)
  | clone i =>
    obtain ⟨c, hc, rfl⟩ := Option.map_eq_some_iff.1 hst
    exact h.copy hc
  | cancel i =>
    obtain ⟨c, hc, rfl⟩ := Option.map_eq_some_iff.1 hst
    exact h.cancel ⟨rfl, rfl⟩ (fun j => eq_comm) (Handles.nodes_of_context? hc) rfl rfl rfl
  | dropGuard g =>
    obtain ⟨n, hn, rfl⟩ := Option.map_eq_some_iff.1 hst
    obtain ⟨i, hi, hin⟩ := h.handle_of_guarded (Handles.guardNodes_of_guarded? hn)
    refine h.cancel ⟨rfl, rfl⟩ (fun j => ?_) hin rfl rfl ?_
    · show (guardedHandles ops)[g]? = some j ↔ j = i
      rw [hi, Option.some.injEq, eq_comm]
    · exact map_modify_of_eq Guard.node (fun x => { x with live := false }) (fun _ => rfl) _ g
  | cancelOnDrop i =>
    obtain ⟨c, hc, rfl⟩ := Option.map_eq_some_iff.1 hst
    refine h.keep rfl (fun _ hj => hj) rfl rfl ?_
    rw [guardedHandles_append]
    simp [guardedHandle?, h.guards, Handles.guardNodes, Handles.nodes_of_context? hc]
  | drop i =>
    obtain ⟨c, hc, rfl⟩ := Option.map_eq_some_iff.1 hst
    refine h.keep rfl (fun _ hj => hj) rfl ?_ ?_
    · exact map_modify_of_eq (fun x : Handle => x.context.node) (fun x => { x with live := false })
        (fun _ => rfl) _ i
    rw [guardedHandles_append]
    change _ = s.guardNodes.map some
    simpa [guardedHandle?] using h.guards
  | wait time =>
    cases hst
    refine h.keep rfl (fun _ hj => hj) rfl rfl ?_
    rw [guardedHandles_append]
    change _ = s.guardNodes.map some
    simpa [guardedHandle?] using h.guards

theorem run {more : List ContextOp} (h : Faithful ops s) (hrun : s.run? more = some t) :
    Faithful (ops ++ more) t := by
  induction more generalizing ops s with
  | nil =>
    cases hrun
    simpa using h
  | cons op more ih =>
    rw [Handles.run?, List.foldlM_cons] at hrun
    obtain ⟨u, hu, hrest⟩ := Option.bind_eq_some_iff.1 hrun
    have := ih (h.step hu) hrest
    rwa [List.append_assoc, List.singleton_append] at this

theorem canceled_iff (h : Faithful ops s) {j n : Nat} (hj : s.nodes[j]? = some n) :
    s.contexts.isCanceled n = true ↔ ∃ i, Cancels ops i ∧ Governs (origins ops) i j := by
  rw [h.canceled n (h.shape.lt_length hj)]
  constructor
  · rintro ⟨i, m, hc, hi, hm⟩
    exact ⟨i, hc, (h.shape.governs_iff h.wellFormed hi hj).2 hm⟩
  · rintro ⟨i, hc, hij⟩
    obtain ⟨m, hi⟩ := h.node_of_cancels hc
    exact ⟨i, m, hc, hi, (h.shape.governs_iff h.wellFormed hi hj).1 hij⟩

end Faithful

theorem faithful_of_run? {ops : List ContextOp} {s : Handles}
    (h : ({} : Handles).run? ops = some s) :
    Faithful ops s := by
  simpa using Faithful.empty.run h

/-! ## One operation further -/

namespace Handles

variable {s t : Handles} {op : ContextOp}

/-- Handles keep their nodes. -/
theorem nodes_step? (h : s.step? op = some t) : ∃ ms, t.nodes = s.nodes ++ ms := by
  cases op with
  | background =>
    cases h
    exact ⟨_, nodes_hold s _⟩
  | child i | withTimeout i _ | clone i =>
    obtain ⟨c, -, rfl⟩ := Option.map_eq_some_iff.1 h
    exact ⟨_, nodes_hold s _⟩
  | cancel i | cancelOnDrop i | dropGuard i =>
    obtain ⟨c, -, rfl⟩ := Option.map_eq_some_iff.1 h
    exact ⟨[], (List.append_nil _).symm⟩
  | drop i =>
    obtain ⟨c, -, rfl⟩ := Option.map_eq_some_iff.1 h
    refine ⟨[], ?_⟩
    rw [List.append_nil]
    exact map_modify_of_eq (fun x : Handle => x.context.node) (fun x => { x with live := false })
      (fun _ => rfl) _ i
  | wait time =>
    cases h
    exact ⟨[], (List.append_nil _).symm⟩

/-- Nodes keep their lineage. -/
theorem lineage_step? (h : s.step? op = some t) {n : Nat} (hn : n < s.contexts.nodes.length) :
    t.contexts.lineage n = s.contexts.lineage n := by
  cases op with
  | background =>
    cases h
    exact Contexts.lineage_append_old _ _ hn
  | child i | withTimeout i _ =>
    obtain ⟨c, -, rfl⟩ := Option.map_eq_some_iff.1 h
    exact Contexts.lineage_append_old _ _ hn
  | clone i | cancelOnDrop i | drop i =>
    obtain ⟨c, -, rfl⟩ := Option.map_eq_some_iff.1 h
    rfl
  | cancel i | dropGuard i =>
    obtain ⟨c, -, rfl⟩ := Option.map_eq_some_iff.1 h
    exact Contexts.lineage_cancelNode _ _ _
  | wait time =>
    cases h
    rfl

/-- What is derived from a context starts out cancelled iff the context is. -/
theorem canceled_of_derived {j : Nat} {c : Context} (hj : s.context? j = some c)
    (hop : op.origin? = some (.derived j)) (h : s.step? op = some t) :
    ∃ d, t.context? s.handles.length = some d ∧
      t.contexts.isCanceled d.node = s.contexts.isCanceled c.node := by
  have hnew : ∀ d : Context,
      (s.hold (s.contexts.child c |>.1, d)).context? s.handles.length = some d := by
    intro d
    simp [context?, hold]
  cases op <;> cases hop
  all_goals
    obtain ⟨c', hc', rfl⟩ := Option.map_eq_some_iff.1 h
    obtain rfl := Option.some.inj (hj.symm.trans hc')
    exact ⟨_, hnew _, Contexts.isCanceled_append_new _ _⟩

end Handles

namespace Faithful

variable {ops : List ContextOp} {s t : Handles}

theorem node_of_hits (h : Faithful ops s) {op : ContextOp} (hst : s.step? op = some t) {i : Nat}
    (hit : Hits ops op i) : ∃ n, s.nodes[i]? = some n := by
  cases op with
  | cancel k =>
    obtain ⟨c, hc, -⟩ := Option.map_eq_some_iff.1 hst
    obtain rfl : k = i := hit
    exact ⟨_, Handles.nodes_of_context? hc⟩
  | dropGuard g =>
    obtain ⟨n, hn, -⟩ := Option.map_eq_some_iff.1 hst
    exact ⟨n, h.node_of_guarded hit (Handles.guardNodes_of_guarded? hn)⟩
  | _ => exact absurd hit id

/-- **An operation cancels what is governed by the handles that it names, and nothing else.** -/
theorem canceled_step_iff (h : Faithful ops s) {op : ContextOp} (hst : s.step? op = some t)
    {j n : Nat} (hj : s.nodes[j]? = some n) : t.contexts.isCanceled n = true ↔
      s.contexts.isCanceled n = true ∨ ∃ i, Hits ops op i ∧ Governs (origins ops) i j := by
  have ht := h.step hst
  obtain ⟨ms, hms⟩ := Handles.nodes_step? hst
  have hline := Handles.lineage_step? hst (h.shape.lt_length hj)
  have hj' : t.nodes[j]? = some n := hms ▸ getElem?_append_of_eq_some hj ms
  rw [ht.canceled n (ht.shape.lt_length hj'), hline, h.canceled n (h.shape.lt_length hj)]
  constructor
  · rintro ⟨i, m, hc, hi, hm⟩
    -- what has been cancelled by now was there before the operation
    obtain ⟨m', hold⟩ : ∃ m', s.nodes[i]? = some m' :=
      (cancels_append.1 hc).elim h.node_of_cancels (h.node_of_hits hst)
    rw [hms, getElem?_append_of_eq_some hold] at hi
    cases hi
    rcases cancels_append.1 hc with hc | hc
    · exact Or.inl ⟨i, _, hc, hold, hm⟩
    · exact Or.inr ⟨i, hc, (h.shape.governs_iff h.wellFormed hold hj).2 hm⟩
  · rintro (⟨i, m, hc, hi, hm⟩ | ⟨i, hit, hij⟩)
    · exact ⟨i, m, cancels_append.2 (Or.inl hc), hms ▸ getElem?_append_of_eq_some hi ms, hm⟩
    · obtain ⟨m, hi⟩ := h.node_of_hits hst hit
      exact ⟨i, m, cancels_append.2 (Or.inr hit), hms ▸ getElem?_append_of_eq_some hi ms,
        (h.shape.governs_iff h.wellFormed hi hj).1 hij⟩

end Faithful

namespace Shape

variable {os : List Origin} {cs : Contexts} {ns : List Nat}

theorem node_of_governs (h : Shape os cs ns) {i j n : Nat} (hi : ns[i]? = some n)
    (hij : Governs os i j) : ∃ m, ns[j]? = some m := by
  induction hij with
  | self => exact ⟨n, hi⟩
  | copied hk _ ih => exact ih.imp fun _ hm => (h.copied hk).2.symm.trans hm
  | original hk _ ih => exact ih.imp fun _ hm => (h.copied hk).2.trans hm
  | derived hk _ _ => exact h.node_of_origin hk

/-- Handles that govern each other are copies of one context. -/
theorem copies_of_governs (h : Shape os cs ns) (hwf : cs.WellFormed) {i j n : Nat}
    (hi : ns[i]? = some n) (hij : Governs os i j) (hji : Governs os j i) : Copies os i j := by
  obtain ⟨m, hj⟩ := h.node_of_governs hi hij
  have hle := Contexts.le_of_mem_lineage ((h.governs_iff hwf hi hj).1 hij)
  have hge := Contexts.le_of_mem_lineage ((h.governs_iff hwf hj hi).1 hji)
  obtain rfl := le_antisymm hle hge
  exact h.copies_of_node_eq hi hj

/-- Two handles derived from copies of one context do not govern each other. -/
theorem not_governs_sibling (h : Shape os cs ns) (hwf : cs.WellFormed) {i j p q : Nat}
    (hi : os[i]? = some (.derived p)) (hj : os[j]? = some (.derived q)) (hpq : Copies os p q)
    (hne : i ≠ j) : ¬ Governs os i j := by
  intro hij
  obtain ⟨n, hn⟩ := h.node_of_origin hi
  obtain ⟨m, hm⟩ := h.node_of_origin hj
  obtain ⟨a, ha, hpa⟩ := h.derived hi hn
  obtain ⟨b, hb, hpb⟩ := h.derived hj hm
  -- both hang on the same node
  obtain ⟨hab, hba⟩ := governs_of_copies hpq
  have hle := Contexts.le_of_mem_lineage ((h.governs_iff hwf ha hb).1 hab)
  have hge := Contexts.le_of_mem_lineage ((h.governs_iff hwf hb ha).1 hba)
  obtain rfl := le_antisymm hle hge
  rcases (Contexts.mem_lineage_iff hwf).1 ((h.governs_iff hwf hn hm).1 hij) with rfl | ⟨c, hc, hnc⟩
  · -- a node is made for one handle only
    obtain ⟨f, -, -, hf⟩ := h.made n (h.lt_length hn)
    have hfirst : ∀ {k l : Nat}, ns[k]? = some n → os[k]? = some (.derived l) → k = f := by
      intro k l hk hl
      refine (hf k hk).resolve_right ?_
      rintro ⟨x, hx⟩
      rw [hl] at hx
      cases hx
    exact hne ((hfirst hn hi).trans (hfirst hm hj).symm)
  · obtain rfl := Option.some.inj (hpb.symm.trans hc)
    exact absurd (Contexts.le_of_mem_lineage hnc) (Nat.not_le.2 (hwf.parent_lt hpa))

end Shape

/-- **A context is cancelled iff a handle that governs it was cancelled.**  After any operations:

* a live context is cancelled iff it, a copy of it, or a context from which it stems was cancelled
  by name or by a guard that was let go;
* a further operation cancels what is governed by the handles that it names and nothing else, so
  letting go a handle cancels nothing, and cuts nothing off from what is above it;
* what is derived from a context starts out cancelled iff the context is;
* a handle governs neither what it stems from nor its siblings. -/
theorem canceled_iff_governed {ops : List ContextOp} {s : Handles}
    (hrun : ({} : Handles).run? ops = some s) {j : Nat} {c : Context} (hj : s.context? j = some c) :
    (s.contexts.error? c s.now = some .canceled ↔
      ∃ i, Cancels ops i ∧ Governs (origins ops) i j) ∧
    (∀ op t, s.step? op = some t →
      (t.contexts.error? c t.now = some .canceled ↔
        s.contexts.error? c s.now = some .canceled ∨
          ∃ i, Hits ops op i ∧ Governs (origins ops) i j) ∧
      (op.origin? = some (.derived j) → ∃ d, t.context? s.handles.length = some d ∧
        (t.contexts.error? d t.now = some .canceled ↔
          s.contexts.error? c s.now = some .canceled))) ∧
    (∀ i, Governs (origins ops) j i → ¬ Copies (origins ops) j i → ¬ Governs (origins ops) i j) ∧
    ∀ i p q, (origins ops)[i]? = some (.derived p) → (origins ops)[j]? = some (.derived q) →
      Copies (origins ops) p q → i ≠ j →
      ¬ Governs (origins ops) i j ∧ ¬ Governs (origins ops) j i := by
  have h := faithful_of_run? hrun
  have hn := Handles.nodes_of_context? hj
  refine ⟨?_, fun op t hst => ⟨?_, fun hop => ?_⟩, fun i hji hcopy hij => ?_, ?_⟩
  · rw [Contexts.error?_eq_canceled_iff]
    exact h.canceled_iff hn
  · rw [Contexts.error?_eq_canceled_iff, Contexts.error?_eq_canceled_iff]
    exact h.canceled_step_iff hst hn
  · obtain ⟨d, hd, hcd⟩ := Handles.canceled_of_derived hj hop hst
    refine ⟨d, hd, ?_⟩
    rw [Contexts.error?_eq_canceled_iff, Contexts.error?_eq_canceled_iff, hcd]
  · exact hcopy (h.shape.copies_of_governs h.wellFormed hn hji hij)
  · intro i p q hi hj' hpq hne
    exact ⟨h.shape.not_governs_sibling h.wellFormed hi hj' hpq hne,
      h.shape.not_governs_sibling h.wellFormed hj' hi (.symm _ _ hpq) hne.symm⟩

/-- A context is cancelled through a guard on the oldest one above it, although no handle on that
one or on the one in between is left. -/
theorem canceled_past_dropped_handles :
    ∃ s c, ({} : Handles).run? [.background, .child 0, .withTimeout 1 5000000, .cancelOnDrop 0,
      .drop 0, .drop 1, .wait 3, .dropGuard 0] = some s ∧ s.context? 2 = some c ∧
      s.contexts.error? c s.now = some .canceled := by
  have hrun : ({} : Handles).run? [.background, .child 0, .withTimeout 1 5000000, .cancelOnDrop 0,
      .drop 0, .drop 1, .wait 3, .dropGuard 0] = some {
        contexts := ⟨[⟨none, true⟩, ⟨some 0, true⟩, ⟨some 1, true⟩]⟩
        handles := [⟨⟨0, none⟩, false⟩, ⟨⟨1, none⟩, false⟩, ⟨⟨2, some 5000000⟩, true⟩]
        guards := [⟨0, false⟩]
        now := 3 } := by decide +kernel
  have hgoverned := canceled_iff_governed (j := 2) hrun rfl
  refine ⟨_, ⟨2, some 5000000⟩, hrun, rfl, hgoverned.1.2 ⟨0, ?_, ?_⟩⟩
  · exact ⟨[.background, .child 0, .withTimeout 1 5000000, .cancelOnDrop 0, .drop 0, .drop 1,
      .wait 3], .dropGuard 0, [], rfl, rfl⟩
  · exact .derived (j := 1) rfl (.derived (j := 0) rfl .self)

end HealthService
