import HealthService.Proofs.Json.ReadBack
import Mathlib.Data.String.Basic

/-!
# Values in order

The members of an object are kept sorted by key, each key once (`Json.Ordered`).  Whoever puts members
where they belong keeps an object so, and whoever reads one gets it so.

* `ordered_insertMember` — putting a member at its place keeps the order.
* `eq_of_lookup` — members in order are known by their values.
* `sorted_of_ordered` — what is in order already is not changed by bringing it in order.
* `readAny_cases` — what is read is a scalar, a list or an object.
* `ordered_readAny` — **what a reader builds is in order**, whatever it reads.
-/

namespace HealthService.Json

/-! ## Members in order -/

/-- Members sorted by key, each key once. -/
def InOrder (members : Members) : Prop := members.Pairwise fun m n => m.1 < n.1

/-- A value all of whose objects are in order. -/
inductive Ordered : Json → Prop where
  | null : Ordered .null
  | bool (b : Bool) : Ordered (.bool b)
  | int (n : WordInt) : Ordered (.int n)
  | float (bits : UInt64) : Ordered (.float bits)
  | text (s : String) : Ordered (.text s)
  | list {items : List Json} (h : ∀ j ∈ items, Ordered j) : Ordered (.list items)
  | object {members : Members} (horder : InOrder members) (h : ∀ m ∈ members, Ordered m.2) :
      Ordered (.object members)

theorem ordered_object_iff {members : Members} :
    (Json.object members).Ordered ↔ InOrder members ∧ ∀ m ∈ members, m.2.Ordered :=
  ⟨fun h => by cases h with | object horder hall => exact ⟨horder, hall⟩, fun h => .object h.1 h.2⟩

theorem mem_insertMember {key : String} {value : Json} {members : Members} {m : String × Json}
    (h : m ∈ insertMember key value members) : m = (key, value) ∨ m ∈ members := by
  induction members with
  | nil => exact Or.inl (List.mem_singleton.1 h)
  | cons n members ih =>
    obtain ⟨k, v⟩ := n
    unfold insertMember at h
    split at h
    · rcases List.mem_cons.1 h with h | h
      · exact Or.inl h
      · exact Or.inr (List.mem_cons_of_mem _ h)
    · split at h
      · exact List.mem_cons.1 h
      · rcases List.mem_cons.1 h with rfl | h
        · exact Or.inr List.mem_cons_self
        · exact (ih h).imp_right (List.mem_cons_of_mem _)

/-- **Putting a member at its place keeps the order.** -/
theorem ordered_insertMember (key : String) (value : Json) {members : Members}
    (h : InOrder members) : InOrder (insertMember key value members) := by
  induction members with
  | nil => exact List.pairwise_singleton _ _
  | cons m members ih =>
    obtain ⟨k, v⟩ := m
    obtain ⟨hlt, hrest⟩ := List.pairwise_cons.1 h
    unfold insertMember
    split
    · rename_i heq
      subst heq
      exact List.pairwise_cons.2 ⟨hlt, hrest⟩
    · rename_i hne
      split
      · rename_i hbefore
        refine List.pairwise_cons.2 ⟨fun n hn => ?_, h⟩
        rcases List.mem_cons.1 hn with rfl | hn
        · exact hbefore
        · exact lt_trans hbefore (hlt n hn)
      · rename_i hafter
        refine List.pairwise_cons.2 ⟨fun n hn => ?_, ih hrest⟩
        rcases mem_insertMember hn with rfl | hn
        · exact lt_of_le_of_ne (not_lt.1 hafter) (Ne.symm hne)
        · exact hlt n hn

/-- A member that comes after all others is put at the end. -/
theorem insertMember_of_forall_lt {key : String} (value : Json) {members : Members}
    (h : ∀ m ∈ members, m.1 < key) : insertMember key value members = members ++ [(key, value)] := by
  induction members with
  | nil => rfl
  | cons m members ih =>
    obtain ⟨hm, hmembers⟩ := List.forall_mem_cons.1 h
    rw [insertMember, if_neg hm.ne', if_neg hm.not_gt, ih hmembers]
    rfl

/-- Members in order are put one after the other. -/
theorem foldl_insertMember (before : Members) {members : Members} (h : InOrder (before ++ members)) :
    members.foldl (fun acc m => insertMember m.1 m.2 acc) before = before ++ members := by
  induction members generalizing before with
  | nil => exact (List.append_nil before).symm
  | cons m members ih =>
    have hlt : ∀ n ∈ before, n.1 < m.1 := fun n hn =>
      (List.pairwise_append.1 h).2.2 n hn m List.mem_cons_self
    rw [List.foldl_cons, insertMember_of_forall_lt m.2 hlt, ih]
    · rw [List.append_assoc]
      rfl
    · rw [List.append_assoc]
      exact h

/-- A key that comes before all others is not among them. -/
theorem lookup_of_forall_lt {key : String} {members : Members} (h : ∀ m ∈ members, key < m.1) :
    members.lookup key = none := by
  rw [List.lookup_eq_none_iff]
  intro m hm
  simpa using (h m hm).ne

/-- **Members in order are known by their values**: each key has one place. -/
theorem eq_of_lookup {ms ms' : Members} (h : InOrder ms) (h' : InOrder ms')
    (hlookup : ∀ key, ms.lookup key = ms'.lookup key) : ms = ms' := by
  induction ms generalizing ms' with
  | nil =>
    cases ms' with
    | nil => rfl
    | cons m' ms' =>
      have hfirst := hlookup m'.1
      rw [lookup_cons_eq, if_pos rfl] at hfirst
      cases hfirst
  | cons m ms ih =>
    obtain ⟨key, value⟩ := m
    obtain ⟨hlt, hms⟩ := List.pairwise_cons.1 h
    have hfirst := hlookup key
    rw [lookup_cons_eq, if_pos rfl] at hfirst
    cases ms' with
    | nil => cases hfirst
    | cons m' ms' =>
      obtain ⟨key', value'⟩ := m'
      obtain ⟨hlt', hms'⟩ := List.pairwise_cons.1 h'
      have hfirst' := hlookup key'
      rw [lookup_cons_eq, lookup_cons_eq, if_pos rfl] at hfirst'
      rw [lookup_cons_eq] at hfirst
      -- If one of the first keys came before the other, the other members would not have it.
      rcases lt_trichotomy key key' with hbefore | rfl | hafter
      · rw [if_neg hbefore.ne, lookup_of_forall_lt fun n hn => hbefore.trans (hlt' n hn)] at hfirst
        cases hfirst
      · rw [if_pos rfl] at hfirst
        obtain rfl := Option.some.inj hfirst
        rw [ih hms hms']
        intro other
        by_cases hother : other = key
        · rw [hother, lookup_of_forall_lt hlt, lookup_of_forall_lt hlt']
        · have hrest := hlookup other
          rwa [lookup_cons_eq, lookup_cons_eq, if_neg hother, if_neg hother] at hrest
      · rw [if_neg hafter.ne, lookup_of_forall_lt fun n hn => hafter.trans (hlt n hn)] at hfirst'
        cases hfirst'

/-- **What is in order already is not changed** by bringing it in order. -/
theorem sorted_of_ordered {j : Json} (h : j.Ordered) : j.sorted = j := by
  induction h with
  | @list items _ ih =>
    rw [sorted, sortedItems_eq, List.map_congr_left ih, List.map_id']
  | @object members horder _ ih =>
    have hvalues : ∀ before : Members,
        members.foldl (fun acc m => insertMember m.1 (sorted m.2) acc) before =
          members.foldl (fun acc m => insertMember m.1 m.2 acc) before :=
      fun before => List.foldl_ext _ _ before fun acc m hm => by rw [ih m hm]
    rw [sorted, sortedMembers_eq, hvalues, foldl_insertMember [] horder]
    rfl
  | _ => rfl

/-! ## What is read is in order -/

/-- A reading in two steps succeeds if both do. -/
theorem bind_eq_ok_iff {ε α β : Type} {x : Except ε α} {f : α → Except ε β} {b : β} :
    x.bind f = .ok b ↔ ∃ a, x = .ok a ∧ f a = .ok b := by
  cases x with
  | error e => exact ⟨fun h => (by cases h), fun ⟨a, h, _⟩ => (by cases h)⟩
  | ok a => exact ⟨fun h => ⟨a, rfl, h⟩, fun ⟨a', h, hf⟩ => by cases h; exact hf⟩

section Readers

variable {α σ : Type}

/-- What holds of every item that is read holds of the items of a list. -/
theorem forall_of_readItems {item : Bytes → Except Fault (α × Bytes)} {P : α → Prop}
    (hitem : ∀ b x rest, item b = .ok (x, rest) → P x) {bound b rest : Bytes} {acc xs : List α}
    (hacc : ∀ x ∈ acc, P x) (h : readItems item bound acc b = .ok (xs, rest)) : ∀ x ∈ xs, P x := by
  induction bound generalizing acc b with
  | nil => cases h
  | cons y bound ih =>
    obtain ⟨next, -, h⟩ := bind_eq_ok_iff.1 h
    cases next with
    | close here =>
      obtain ⟨rfl, -⟩ := Prod.mk.inj (Except.ok.inj h)
      exact fun x hx => hacc x (List.mem_reverse.1 hx)
    | more c =>
      obtain ⟨⟨x, c'⟩, hx, h⟩ := bind_eq_ok_iff.1 h
      exact ih (List.forall_mem_cons.2 ⟨hitem _ _ _ hx, hacc⟩) h

/-- What the reading of every member keeps is kept by the reading of an object. -/
theorem of_readMembers {value : String → σ → Bytes → Except Fault (σ × Bytes)} {P : σ → Prop}
    (hvalue : ∀ key s b t rest, P s → value key s b = .ok (t, rest) → P t) {bound b rest : Bytes}
    {first : Bool} {s t : σ} (hs : P s) (h : readMembers value bound first s b = .ok (t, rest)) :
    P t := by
  induction bound generalizing first s b with
  | nil => cases h
  | cons y bound ih =>
    obtain ⟨next, -, h⟩ := bind_eq_ok_iff.1 h
    cases next with
    | close here =>
      obtain ⟨rfl, -⟩ := Prod.mk.inj (Except.ok.inj h)
      exact hs
    | more c =>
      obtain ⟨⟨key, c'⟩, -, h⟩ := bind_eq_ok_iff.1 h
      obtain ⟨⟨s', c''⟩, hs', h⟩ := bind_eq_ok_iff.1 h
      exact ih (hvalue _ _ _ _ _ hs hs') h

end Readers

theorem ordered_toJson (s : Scalar) : s.toJson.Ordered := by
  cases s with
  | null => exact .null
  | bool b => exact .bool b
  | text s => exact .text s
  | number n =>
    cases n with
    | int n => exact .int n
    | float bits => exact .float bits

/-- What is read is a scalar, or a list or an object whose parts are read with one level less. -/
theorem readAny_cases {levels : Nat} {b rest : Bytes} {j : Json}
    (h : readAny levels b = .ok (j, rest)) :
    (∃ s : Scalar, j = s.toJson) ∨ ∃ l here, levels = l + 1 ∧
      ((∃ items, j = .list items ∧
          readItems (readAny l) here [] (here.drop 1) = .ok (items, rest)) ∨
        ∃ members, j = .object members ∧
          readMembers (readMember (readAny l)) here true [] (here.drop 1) = .ok (members, rest)) := by
  unfold readAny at h
  obtain ⟨head, -, h⟩ := bind_eq_ok_iff.1 h
  cases head with
  | scalar s c =>
    obtain ⟨rfl, -⟩ := Prod.mk.inj (Except.ok.inj h)
    exact Or.inl ⟨s, rfl⟩
  | list here =>
    cases levels with
    | zero => cases h
    | succ l =>
      obtain ⟨⟨items, c⟩, hitems, h⟩ := bind_eq_ok_iff.1 h
      obtain ⟨rfl, rfl⟩ := Prod.mk.inj (Except.ok.inj h)
      exact Or.inr ⟨l, here, rfl, Or.inl ⟨items, rfl, hitems⟩⟩
  | object here =>
    cases levels with
    | zero => cases h
    | succ l =>
      obtain ⟨⟨members, c⟩, hmembers, h⟩ := bind_eq_ok_iff.1 h
      obtain ⟨rfl, rfl⟩ := Prod.mk.inj (Except.ok.inj h)
      exact Or.inr ⟨l, here, rfl, Or.inr ⟨members, rfl, hmembers⟩⟩

/-- An object is in order after each of its members. -/
theorem ordered_readMember {value : Bytes → Except Fault (Json × Bytes)} {key : String}
    {acc ms : Members} {b rest : Bytes} (hvalue : ∀ b v rest, value b = .ok (v, rest) → v.Ordered)
    (hacc : (Json.object acc).Ordered) (h : readMember value key acc b = .ok (ms, rest)) :
    (Json.object ms).Ordered := by
  obtain ⟨c, -, h⟩ := bind_eq_ok_iff.1 h
  obtain ⟨⟨v, c'⟩, hv, h⟩ := bind_eq_ok_iff.1 h
  obtain ⟨rfl, -⟩ := Prod.mk.inj (Except.ok.inj h)
  obtain ⟨horder, hmembers⟩ := ordered_object_iff.1 hacc
  refine .object (ordered_insertMember key v horder) fun m hm => ?_
  rcases mem_insertMember hm with rfl | hm
  · exact hvalue _ _ _ hv
  · exact hmembers m hm

/-- **What a reader builds is in order**, whatever it reads. -/
theorem ordered_readAny {levels : Nat} {b rest : Bytes} {j : Json}
    (h : readAny levels b = .ok (j, rest)) : j.Ordered := by
  induction levels generalizing b rest j with
  | zero =>
    rcases readAny_cases h with ⟨s, rfl⟩ | ⟨l, here, hl, -⟩
    · exact ordered_toJson s
    · cases hl
  | succ levels ih =>
    rcases readAny_cases h with ⟨s, rfl⟩ | ⟨l, here, hl, ⟨items, rfl, h⟩ | ⟨members, rfl, h⟩⟩
    · exact ordered_toJson s
    · obtain rfl := Nat.succ.inj hl
      exact .list (forall_of_readItems (fun _ _ _ => ih) (by simp) h)
    · obtain rfl := Nat.succ.inj hl
      exact of_readMembers (P := fun ms => (Json.object ms).Ordered)
        (fun _ _ _ _ _ => ordered_readMember fun _ _ _ => ih) (.object List.Pairwise.nil (by simp)) h

end HealthService.Json
