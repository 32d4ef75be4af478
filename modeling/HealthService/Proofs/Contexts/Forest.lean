import HealthService.Check.Context
import Mathlib.Tactic

/-!
# The forest of contexts

`Contexts.lineage` lists a node and everything above it.  In a well-formed forest
(`Contexts.WellFormed`) parents come before their children and a node below a cancelled one is
cancelled; deriving and cancelling keep it so (`wellFormed_background`, `wellFormed_child`,
`wellFormed_cancelNode`).

* `isCanceled_cancelNode` — **cancelling reaches a node and what is below it, and nothing else**:
  afterwards a node is cancelled iff it was before or has the cancelled node in its lineage.
* `lineage_append_old`, `lineage_append_new` — deriving a context changes the lineage of no other.
* `error?_eq_canceled_iff` — what a context says of itself is read off its node.
-/

namespace HealthService
namespace Contexts

/-! ## Lineage -/

/-- The node from which another one is derived. -/
def parent? (cs : Contexts) (node : Nat) : Option Nat := (cs.nodes[node]?).bind Node.parent

/-- A node and all nodes above it, the nearest first. -/
def lineage (cs : Contexts) (node : Nat) : List Nat :=
  node :: match cs.parent? node with
    | some p => if p < node then cs.lineage p else []
    | none => []
termination_by node

/-- What every operation on contexts keeps: parents come first, and what is below a cancelled node is
cancelled. -/
structure WellFormed (cs : Contexts) : Prop where
  parent_lt : ∀ {n p : Nat}, cs.parent? n = some p → p < n
  canceled_of_parent : ∀ {n p : Nat}, cs.parent? n = some p → cs.isCanceled p = true →
    cs.isCanceled n = true

theorem lt_length_of_parent? {cs : Contexts} {n p : Nat} (h : cs.parent? n = some p) :
    n < cs.nodes.length := by
  unfold parent? at h
  obtain ⟨x, hx, -⟩ := Option.bind_eq_some_iff.1 h
  exact (List.getElem?_eq_some_iff.1 hx).1

theorem lt_length_of_isCanceled {cs : Contexts} {n : Nat} (h : cs.isCanceled n = true) :
    n < cs.nodes.length := by
  unfold isCanceled at h
  split at h
  · rename_i x hx
    exact (List.getElem?_eq_some_iff.1 hx).1
  · exact absurd h (by simp)

theorem self_mem_lineage (cs : Contexts) (n : Nat) : n ∈ cs.lineage n := by
  rw [lineage]
  exact List.mem_cons_self ..

theorem mem_lineage_iff {cs : Contexts} (h : cs.WellFormed) {m n : Nat} :
    m ∈ cs.lineage n ↔ m = n ∨ ∃ p, cs.parent? n = some p ∧ m ∈ cs.lineage p := by
  rw [lineage, List.mem_cons]
  cases hp : cs.parent? n with
  | none => simp
  | some p => simp [h.parent_lt hp]

/-- What is above a node came before it. -/
theorem le_of_mem_lineage {cs : Contexts} {m n : Nat} (h : m ∈ cs.lineage n) : m ≤ n := by
  induction n using Nat.strong_induction_on with
  | _ n ih =>
    rw [lineage, List.mem_cons] at h
    rcases h with rfl | h
    · exact le_rfl
    · split at h
      · split at h
        · rename_i p hp hlt
          exact (ih p hlt h).trans hlt.le
        · exact absurd h (by simp)
      · exact absurd h (by simp)

/-- The lineage of a node depends on nothing but the parents up to it. -/
theorem lineage_congr {cs ds : Contexts} {n : Nat} (h : ∀ k ≤ n, cs.parent? k = ds.parent? k) :
    cs.lineage n = ds.lineage n := by
  induction n using Nat.strong_induction_on with
  | _ n ih =>
    rw [lineage, lineage, ← h n le_rfl]
    congr 1
    split
    · split
      · rename_i p _ hlt
        exact ih p hlt fun k hk => h k (hk.trans hlt.le)
      · rfl
    · rfl

/-- A node below a cancelled one is cancelled. -/
theorem isCanceled_of_mem_lineage {cs : Contexts} (h : cs.WellFormed) {m n : Nat}
    (hm : m ∈ cs.lineage n) (hc : cs.isCanceled m = true) : cs.isCanceled n = true := by
  induction n using Nat.strong_induction_on with
  | _ n ih =>
    rcases (mem_lineage_iff h).1 hm with rfl | ⟨p, hp, hmp⟩
    · exact hc
    · exact h.canceled_of_parent hp (ih p (h.parent_lt hp) hmp)

/-! ## Deriving -/

theorem parent?_append_old (cs : Contexts) (xs : List Node) {k : Nat} (hk : k < cs.nodes.length) :
    parent? ⟨cs.nodes ++ xs⟩ k = cs.parent? k := by
  unfold parent?
  rw [List.getElem?_append_left hk]

theorem parent?_append_new (cs : Contexts) (x : Node) :
    parent? ⟨cs.nodes ++ [x]⟩ cs.nodes.length = x.parent := by
  simp [parent?]

theorem isCanceled_append_old (cs : Contexts) (xs : List Node) {k : Nat} (hk : k < cs.nodes.length) :
    isCanceled ⟨cs.nodes ++ xs⟩ k = cs.isCanceled k := by
  unfold isCanceled
  rw [List.getElem?_append_left hk]

theorem isCanceled_append_new (cs : Contexts) (x : Node) :
    isCanceled ⟨cs.nodes ++ [x]⟩ cs.nodes.length = x.canceled := by
  simp [isCanceled]

/-- New nodes leave the lineage of the others as it is. -/
theorem lineage_append_old (cs : Contexts) (xs : List Node) {k : Nat} (hk : k < cs.nodes.length) :
    lineage ⟨cs.nodes ++ xs⟩ k = cs.lineage k :=
  lineage_congr fun _ hj => parent?_append_old cs xs (hj.trans_lt hk)

/-- The lineage of a new node is the one of its parent and the node itself. -/
theorem lineage_append_new (cs : Contexts) {p : Nat} (b : Bool) (hp : p < cs.nodes.length) :
    lineage ⟨cs.nodes ++ [⟨some p, b⟩]⟩ cs.nodes.length = cs.nodes.length :: cs.lineage p := by
  rw [lineage, parent?_append_new]
  simp only [hp, if_true]
  rw [lineage_append_old cs _ hp]

theorem lineage_append_root (cs : Contexts) (b : Bool) :
    lineage ⟨cs.nodes ++ [⟨none, b⟩]⟩ cs.nodes.length = [cs.nodes.length] := by
  rw [lineage, parent?_append_new]

theorem wellFormed_empty : WellFormed {} where
  parent_lt h := by simp [parent?] at h
  canceled_of_parent h := by simp [parent?] at h

/-- A forest stays well formed if a node is added below an earlier one and takes over that it is
cancelled. -/
theorem wellFormed_append {cs : Contexts} (h : cs.WellFormed) {x : Node}
    (hx : ∀ p, x.parent = some p →
      p < cs.nodes.length ∧ (cs.isCanceled p = true → x.canceled = true)) :
    WellFormed ⟨cs.nodes ++ [x]⟩ := by
  have hcase : ∀ {n p : Nat}, parent? ⟨cs.nodes ++ [x]⟩ n = some p →
      (n < cs.nodes.length ∧ cs.parent? n = some p) ∨ (n = cs.nodes.length ∧ x.parent = some p) := by
    intro n p hp
    have hn := lt_length_of_parent? hp
    rw [List.length_append, List.length_singleton] at hn
    rcases Nat.lt_succ_iff_lt_or_eq.1 hn with hlt | rfl
    · exact Or.inl ⟨hlt, by rwa [parent?_append_old cs [x] hlt] at hp⟩
    · exact Or.inr ⟨rfl, by rwa [parent?_append_new] at hp⟩
  constructor
  · intro n p hp
    rcases hcase hp with ⟨-, hq⟩ | ⟨rfl, hq⟩
    · exact h.parent_lt hq
    · exact (hx p hq).1
  · intro n p hp hc
    rcases hcase hp with ⟨hn, hq⟩ | ⟨rfl, hq⟩
    · rw [isCanceled_append_old cs [x] ((h.parent_lt hq).trans hn)] at hc
      rw [isCanceled_append_old cs [x] hn]
      exact h.canceled_of_parent hq hc
    · rw [isCanceled_append_old cs [x] (hx p hq).1] at hc
      rw [isCanceled_append_new]
      exact (hx p hq).2 hc

theorem wellFormed_append_all {cs : Contexts} (h : cs.WellFormed) (xs : List Node)
    (hxs : ∀ x ∈ xs, ∀ p, x.parent = some p →
      p < cs.nodes.length ∧ (cs.isCanceled p = true → x.canceled = true)) :
    WellFormed ⟨cs.nodes ++ xs⟩ := by
  induction xs using List.reverseRecOn with
  | nil => simpa using h
  | append_singleton xs x ih =>
    have hfirst := ih fun y hy => hxs y (List.mem_append_left _ hy)
    rw [← List.append_assoc]
    refine wellFormed_append hfirst fun p hp => ?_
    obtain ⟨hlt, hc⟩ := hxs x (by simp) p hp
    refine ⟨by simp only [List.length_append]; omega, fun hcp => hc ?_⟩
    rwa [isCanceled_append_old cs xs hlt] at hcp

theorem wellFormed_background {cs : Contexts} (h : cs.WellFormed) : cs.background.1.WellFormed :=
  wellFormed_append h fun _ hp => by cases hp

theorem wellFormed_child {cs : Contexts} (h : cs.WellFormed) {c : Context}
    (hc : c.node < cs.nodes.length) : (cs.child c).1.WellFormed := by
  refine wellFormed_append h fun p hp => ?_
  cases hp
  exact ⟨hc, fun h => h⟩

/-! ## Cancelling -/

/-- `mark` leaves the nodes that it has done. -/
theorem getElem?_mark_done (node : Nat) (done rest : List Node) {i : Nat} (hi : i < done.length) :
    (mark node done rest)[i]? = done[i]? := by
  induction rest generalizing done with
  | nil => rfl
  | cons x rest ih =>
    rw [mark, ih _ (by rw [List.length_append]; omega), List.getElem?_append_left hi]

theorem take_mark (node : Nat) (done rest : List Node) :
    (mark node done rest).take done.length = done := by
  refine List.ext_getElem? fun i => ?_
  rw [List.getElem?_take]
  split
  · rename_i hi
    exact getElem?_mark_done node done rest hi
  · rw [List.getElem?_eq_none (by omega)]

/-- What `mark` makes of a node that it has still to do. -/
theorem getElem?_mark_rest (node : Nat) (done rest : List Node) (i : Nat) :
    (mark node done rest)[done.length + i]? = rest[i]?.map fun x =>
      { x with canceled := x.canceled || (decide (done.length + i = node) ||
        inherits ((mark node done rest).take (done.length + i)) x.parent) } := by
  induction rest generalizing done i with
  | nil => simp [mark]
  | cons x rest ih =>
    cases i with
    | zero =>
      rw [Nat.add_zero, take_mark, mark, getElem?_mark_done _ _ _ (by simp)]
      simp
    | succ i =>
      rw [mark]
      have := ih (done ++ [{ x with canceled :=
        x.canceled || (decide (done.length = node) || inherits done x.parent) }]) i
      rw [List.length_append, List.length_singleton, Nat.add_right_comm, Nat.add_assoc] at this
      simpa using this

theorem nodes_cancelNode (cs : Contexts) (m i : Nat) :
    (cs.cancelNode m).nodes[i]? = cs.nodes[i]?.map fun x =>
      { x with canceled := x.canceled || (decide (i = m) ||
        inherits ((cs.cancelNode m).nodes.take i) x.parent) } := by
  have := getElem?_mark_rest m [] cs.nodes i
  simpa [cancelNode] using this

@[simp] theorem parent?_cancelNode (cs : Contexts) (m n : Nat) :
    (cs.cancelNode m).parent? n = cs.parent? n := by
  unfold parent?
  rw [nodes_cancelNode]
  cases cs.nodes[n]? <;> rfl

@[simp] theorem length_cancelNode (cs : Contexts) (m : Nat) :
    (cs.cancelNode m).nodes.length = cs.nodes.length := by
  refine le_antisymm ?_ ?_
  · by_contra! h
    have := nodes_cancelNode cs m cs.nodes.length
    rw [List.getElem?_eq_none le_rfl, List.getElem?_eq_getElem h] at this
    exact absurd this (by simp)
  · by_contra! h
    have := nodes_cancelNode cs m (cs.cancelNode m).nodes.length
    rw [List.getElem?_eq_none le_rfl, List.getElem?_eq_getElem h] at this
    exact absurd this (by simp)

@[simp] theorem lineage_cancelNode (cs : Contexts) (m n : Nat) :
    (cs.cancelNode m).lineage n = cs.lineage n :=
  lineage_congr fun k _ => parent?_cancelNode cs m k

/-- Whatever is cancelled, what has been cancelled before stays so. -/
theorem isCanceled_cancelNode_of (cs : Contexts) (m : Nat) {n : Nat} (h : cs.isCanceled n = true) :
    (cs.cancelNode m).isCanceled n = true := by
  unfold isCanceled at h ⊢
  rw [nodes_cancelNode]
  cases hn : cs.nodes[n]? with
  | none =>
    rw [hn] at h
    cases h
  | some x =>
    rw [hn] at h
    simp only [Option.map_some]
    rw [show x.canceled = true from h, Bool.true_or]

/-- **Cancelling reaches a node and what is below it, and nothing else.** -/
theorem isCanceled_cancelNode {cs : Contexts} (h : cs.WellFormed) (m n : Nat) :
    (cs.cancelNode m).isCanceled n = true ↔
      cs.isCanceled n = true ∨ (n < cs.nodes.length ∧ m ∈ cs.lineage n) := by
  induction n using Nat.strong_induction_on with
  | _ n ih =>
    by_cases hn : n < cs.nodes.length
    · set x := cs.nodes[n] with hxdef
      have hx : cs.nodes[n]? = some x := List.getElem?_eq_getElem hn
      have hpar : cs.parent? n = x.parent := by rw [parent?, hx, Option.bind_some]
      have hold : cs.isCanceled n = x.canceled := by rw [isCanceled, hx]
      have hnew : (cs.cancelNode m).isCanceled n = (x.canceled || (decide (n = m) ||
          inherits ((cs.cancelNode m).nodes.take n) x.parent)) := by
        rw [isCanceled, nodes_cancelNode, hx]
        rfl
      rw [hnew, hold, mem_lineage_iff h, hpar]
      cases hp : x.parent with
      | none => simp [inherits, hn, @eq_comm _ n m]
      | some p =>
        have hpn : p < n := h.parent_lt (by rw [hpar, hp])
        have hinh : inherits ((cs.cancelNode m).nodes.take n) (some p) =
            (cs.cancelNode m).isCanceled p := by
          simp only [inherits, isCanceled]
          rw [List.getElem?_take_of_lt hpn]
        have hstep : cs.isCanceled p = true → x.canceled = true := by
          intro hc
          rw [← hold]
          exact h.canceled_of_parent (by rw [hpar, hp]) hc
        rw [hinh]
        simp only [Bool.or_eq_true, decide_eq_true_eq, ih p hpn, hpn.trans hn, hn, true_and,
          Option.some.injEq, exists_eq_left']
        constructor
        · rintro (hc | rfl | hc | hm)
          · exact Or.inl hc
          · exact Or.inr (Or.inl rfl)
          · exact Or.inl (hstep hc)
          · exact Or.inr (Or.inr hm)
        · rintro (hc | rfl | hm)
          · exact Or.inl hc
          · exact Or.inr (Or.inl rfl)
          · exact Or.inr (Or.inr (Or.inr hm))
    · have h1 : (cs.cancelNode m).isCanceled n ≠ true := fun hc =>
        hn (by simpa using lt_length_of_isCanceled hc)
      have h2 : cs.isCanceled n ≠ true := fun hc => hn (lt_length_of_isCanceled hc)
      simp [h1, h2, hn]

theorem wellFormed_cancelNode {cs : Contexts} (h : cs.WellFormed) (m : Nat) :
    (cs.cancelNode m).WellFormed := by
  constructor
  · intro n p hp
    rw [parent?_cancelNode] at hp
    exact h.parent_lt hp
  · intro n p hp hc
    rw [parent?_cancelNode] at hp
    rw [isCanceled_cancelNode h] at hc ⊢
    rcases hc with hc | ⟨-, hm⟩
    · exact Or.inl (h.canceled_of_parent hp hc)
    · exact Or.inr ⟨lt_length_of_parent? hp, (mem_lineage_iff h).2 (Or.inr ⟨p, hp, hm⟩)⟩

/-! ## What a context says of itself -/

/-- A context says that it is cancelled iff its node is. -/
theorem error?_eq_canceled_iff (cs : Contexts) (c : Context) (now : Time) :
    cs.error? c now = some .canceled ↔ cs.isCanceled c.node = true := by
  unfold error?
  split
  · rename_i h
    simp [h]
  · rename_i h
    simp only [h]
    split
    · split <;> simp
    · simp

/-- A context has nothing to say iff it is not cancelled and its deadline is still to come. -/
theorem error?_eq_none_iff (cs : Contexts) (c : Context) (now : Time) :
    cs.error? c now = none ↔ ¬ cs.isCanceled c.node = true ∧ ¬ ∃ d ∈ c.deadline, d ≤ now := by
  unfold error?
  cases hc : cs.isCanceled c.node <;> cases hd : c.deadline <;> simp

end Contexts
end HealthService
