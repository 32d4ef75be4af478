import HealthService.Proofs.Format.Documents
import Mathlib.Logic.Relation

/-!
# Defaults said and unsaid

A member that a record may do without has a value when it is left out.  To say that value and to say nothing
comes to the same, wherever in a document the record stands and whatever else is said.

* `Members.collect_insert` — **a member with the value that it has when it is left out** changes nothing
  among others.
* `Format.Edit.interpret_eq` — **one such change keeps the meaning** of a document; `Format.Edits` are any
  number of them.
-/

namespace HealthService

open Json

/-! ## Members by name -/

/-- A record has a member with some name, format and fallback. -/
inductive Members.Has {α : Type} (key : String) (format : Format α) (fallback : Option α) :
    {σ : Type} → Members σ → Prop where
  | here {σ : Type} {hidden : α → Bool} {rest : Members σ} :
      Members.Has key format fallback (.cons key format fallback hidden rest)
  | there {β σ : Type} {other : String} {format' : Format β} {fallback' : Option β} {hidden : β → Bool}
      {rest : Members σ} (hne : key ≠ other) (h : Members.Has key format fallback rest) :
      Members.Has key format fallback (.cons other format' fallback' hidden rest)

/-- Nothing is said of a member. -/
def Unsaid (key : String) (ms : List (String × Doc)) : Prop := ∀ m ∈ ms, m.1 ≠ key

instance (key : String) (ms : List (String × Doc)) : Decidable (Unsaid key ms) :=
  inferInstanceAs (Decidable (∀ m ∈ ms, m.1 ≠ key))

theorem unsaid_append {key : String} {xs ys : List (String × Doc)} :
    Unsaid key (xs ++ ys) ↔ Unsaid key xs ∧ Unsaid key ys := List.forall_mem_append

theorem Unsaid.filter_eq {key : String} {ms : List (String × Doc)} (h : Unsaid key ms) :
    (ms.filter fun m => m.1 = key) = [] := by
  rw [List.filter_eq_nil_iff]
  intro m hm
  simpa using h m hm

theorem Unsaid.filter {key : String} {ms : List (String × Doc)} (h : Unsaid key ms)
    (p : String × Doc → Bool) : Unsaid key (ms.filter p) :=
  fun m hm => h m (List.mem_of_mem_filter hm)

/-- A member among others, as those with another name see it. -/
theorem filter_insert_of_ne {key other : String} (hne : key ≠ other) (xs ys : List (String × Doc)) (v : Doc) :
    ((xs ++ (key, v) :: ys).filter fun m => m.1 = other) = ((xs ++ ys).filter fun m => m.1 = other) ∧
      ((xs ++ (key, v) :: ys).filter fun m => m.1 ≠ other) =
        (xs.filter fun m => m.1 ≠ other) ++ (key, v) :: ys.filter fun m => m.1 ≠ other := by
  simp [List.filter_append, hne]

/-- A member of which nothing else is said. -/
theorem filter_insert_self {key : String} {xs ys : List (String × Doc)} (h : Unsaid key (xs ++ ys)) (v : Doc) :
    ((xs ++ (key, v) :: ys).filter fun m => m.1 = key) = [(key, v)] ∧
      ((xs ++ (key, v) :: ys).filter fun m => m.1 ≠ key) = (xs ++ ys).filter fun m => m.1 ≠ key := by
  obtain ⟨hxs, hys⟩ := unsaid_append.1 h
  simp [List.filter_append, hxs.filter_eq, hys.filter_eq]

namespace Members

/-- A member that occurs has no other occurrence. -/
theorem only_insert_iff {α : Type} {absent : Option α} {read : Doc → Option α} {xs ys : List (String × Doc)}
    {m : String × Doc} {a : α} :
    only absent read (xs ++ m :: ys) = some a ↔ xs = [] ∧ ys = [] ∧ read m.2 = some a := by
  match xs, ys with
  | [], [] => simp [only]
  | [], y :: ys => simp [only]
  | [x], ys => simp [only]
  | x :: x' :: xs, ys => simp [only]

section Has

variable {α σ : Type} {key : String} {format : Format α} {fallback : Option α} {members : Members σ}

/-- No member is said twice. -/
theorem unsaid_of_collect (h : members.Has key format fallback) {xs ys : List (String × Doc)} {v : Doc}
    {s : σ} (hs : members.collect (xs ++ (key, v) :: ys) = some s) : Unsaid key (xs ++ ys) := by
  induction h generalizing xs ys with
  | here =>
    obtain ⟨ha, -⟩ := collect_cons_iff.1 hs
    rw [List.filter_append, List.filter_cons_of_pos (by simp)] at ha
    obtain ⟨hxs, hys, -⟩ := only_insert_iff.1 ha
    rw [List.filter_eq_nil_iff] at hxs hys
    refine unsaid_append.2 ⟨fun m hm => ?_, fun m hm => ?_⟩
    · simpa using hxs m hm
    · simpa using hys m hm
  | there hne _ ih =>
    obtain ⟨-, hrest⟩ := collect_cons_iff.1 hs
    rw [(filter_insert_of_ne hne xs ys v).2] at hrest
    have hothers := ih hrest
    rw [← List.filter_append] at hothers
    rintro m hm rfl
    exact hothers m (List.mem_filter.2 ⟨hm, by simpa using hne⟩) rfl

/-- **A member with the value that it has when it is left out** changes nothing among others. -/
theorem collect_insert (h : members.Has key format fallback) {b : α} (hb : fill key format fallback = .ok b)
    {v : Doc} (hv : format.interpret v = some b) {xs ys : List (String × Doc)} (hunsaid : Unsaid key (xs ++ ys)) :
    members.collect (xs ++ (key, v) :: ys) = members.collect (xs ++ ys) := by
  induction h generalizing xs ys with
  | here =>
    obtain ⟨hsaid, hothers⟩ := filter_insert_self hunsaid v
    rw [collect, collect, hsaid, hothers, hunsaid.filter_eq, hb]
    show (format.interpret v).bind _ = _
    rw [hv]
    rfl
  | there hne _ ih =>
    obtain ⟨hother, hrest⟩ := filter_insert_of_ne hne xs ys v
    obtain ⟨hxs, hys⟩ := unsaid_append.1 hunsaid
    rw [collect, collect, hother, hrest, ih (unsaid_append.2 ⟨hxs.filter _, hys.filter _⟩),
      ← List.filter_append]

/-- A member whose value is said in another way keeps the values of all. -/
theorem collect_member (h : members.Has key format fallback) {v w : Doc}
    (hvw : ∀ b, format.interpret v = some b → format.interpret w = some b) {xs ys : List (String × Doc)}
    {s : σ} (hs : members.collect (xs ++ (key, v) :: ys) = some s) :
    members.collect (xs ++ (key, w) :: ys) = some s := by
  have hunsaid := unsaid_of_collect h hs
  induction h generalizing xs ys with
  | here =>
    obtain ⟨a, s⟩ := s
    rw [collect_cons_iff, (filter_insert_self hunsaid _).1, (filter_insert_self hunsaid _).2] at hs ⊢
    exact ⟨hvw a hs.1, hs.2⟩
  | there hne hrest ih =>
    obtain ⟨a, s⟩ := s
    rw [collect_cons_iff, (filter_insert_of_ne hne xs ys _).1, (filter_insert_of_ne hne xs ys _).2] at hs ⊢
    exact ⟨hs.1, ih hs.2 (unsaid_of_collect hrest hs.2)⟩

end Has

end Members

/-! ## Changes -/

/-- One change to a document: a member of a record with the value that it has when it is left out is left
out or put in, in the record itself or somewhere within it. -/
inductive Format.Edit : {α : Type} → Format α → Doc → Doc → Prop where
  /-- A member is left out. -/
  | leaveOut {α β σ : Type} {name : String} {members : Members σ} {build : σ → α} {parts : α → σ}
      {hbuild : ∀ a, build (parts a) = a} {key : String} {format : Format β} {fallback : Option β} {b : β}
      {v : Doc} (xs ys : List (String × Doc)) (hmember : members.Has key format fallback)
      (hdefault : Members.fill key format fallback = .ok b) (hvalue : format.interpret v = some b) :
      Format.Edit (.record name members build parts hbuild) (.object (xs ++ (key, v) :: ys)) (.object (xs ++ ys))
  /-- A member of which nothing is said is put in. -/
  | putIn {α β σ : Type} {name : String} {members : Members σ} {build : σ → α} {parts : α → σ}
      {hbuild : ∀ a, build (parts a) = a} {key : String} {format : Format β} {fallback : Option β} {b : β}
      {v : Doc} (xs ys : List (String × Doc)) (hmember : members.Has key format fallback)
      (hdefault : Members.fill key format fallback = .ok b) (hvalue : format.interpret v = some b)
      (hunsaid : Unsaid key (xs ++ ys)) :
      Format.Edit (.record name members build parts hbuild) (.object (xs ++ ys)) (.object (xs ++ (key, v) :: ys))
  /-- A change within a member. -/
  | member {α β σ : Type} {name : String} {members : Members σ} {build : σ → α} {parts : α → σ}
      {hbuild : ∀ a, build (parts a) = a} {key : String} {format : Format β} {fallback : Option β}
      {v w : Doc} (xs ys : List (String × Doc)) (hmember : members.Has key format fallback)
      (h : Format.Edit format v w) :
      Format.Edit (.record name members build parts hbuild) (.object (xs ++ (key, v) :: ys))
        (.object (xs ++ (key, w) :: ys))
  /-- A change within an item. -/
  | item {α : Type} {format : Format α} {v w : Doc} (xs ys : List Doc) (h : Format.Edit format v w) :
      Format.Edit (.list format) (.list (xs ++ v :: ys)) (.list (xs ++ w :: ys))
  | optional {α : Type} {format : Format α} {v w : Doc} (h : Format.Edit format v w) :
      Format.Edit (.optional format) v w
  | map {α β : Type} {format : Format α} {make : α → β} {part : β → α} {hmake : ∀ b, make (part b) = b}
      {v w : Doc} (h : Format.Edit format v w) : Format.Edit (.map format make part hmake) v w

/-- Any number of changes, in any places. -/
def Format.Edits {α : Type} (format : Format α) : Doc → Doc → Prop := Relation.ReflTransGen format.Edit

namespace Format

variable {α : Type} {format : Format α} {d d' : Doc}

/-- One item of a list is replaced. -/
theorem forall₂_replace {β γ : Type} {R : β → γ → Prop} {v w : β} {xs ys : List β} {cs : List γ}
    (h : List.Forall₂ R (xs ++ v :: ys) cs) (hvw : ∀ c, R v c → R w c) :
    List.Forall₂ R (xs ++ w :: ys) cs := by
  induction xs generalizing cs with
  | nil =>
    cases h with
    | cons hv hys => exact .cons (hvw _ hv) hys
  | cons x xs ih =>
    cases h with
    | cons hx hxs => exact .cons hx (ih hxs)

/-- What is changed is a list or an object, before and after. -/
theorem Edit.not_isNull (h : format.Edit d d') : d.isNull = false ∧ d'.isNull = false := by
  induction h with
  | leaveOut => exact ⟨rfl, rfl⟩
  | putIn => exact ⟨rfl, rfl⟩
  | member => exact ⟨rfl, rfl⟩
  | item => exact ⟨rfl, rfl⟩
  | optional _ ih => exact ih
  | map _ ih => exact ih

/-- **One change keeps the meaning** of a document. -/
theorem Edit.interpret_eq (h : format.Edit d d') {a : α} (ha : format.interpret d = some a) :
    format.interpret d' = some a := by
  induction h with
  | leaveOut xs ys hmember hdefault hvalue =>
    obtain ⟨s, hs, rfl⟩ := Option.map_eq_some_iff.1 ha
    have hunsaid := Members.unsaid_of_collect hmember hs
    rw [Members.collect_insert hmember hdefault hvalue hunsaid] at hs
    exact Option.map_eq_some_iff.2 ⟨s, hs, rfl⟩
  | putIn xs ys hmember hdefault hvalue hunsaid =>
    obtain ⟨s, hs, rfl⟩ := Option.map_eq_some_iff.1 ha
    rw [← Members.collect_insert hmember hdefault hvalue hunsaid] at hs
    exact Option.map_eq_some_iff.2 ⟨s, hs, rfl⟩
  | member xs ys hmember _ ih =>
    obtain ⟨s, hs, rfl⟩ := Option.map_eq_some_iff.1 ha
    exact Option.map_eq_some_iff.2 ⟨s, Members.collect_member hmember (fun _ => ih) hs, rfl⟩
  | item xs ys _ ih =>
    obtain ⟨ds, hds, has⟩ := Option.bind_eq_some_iff.1 ha
    obtain rfl := Option.some.inj hds
    have hsame := forall₂_replace (mapM_eq_some_iff.1 has) fun _ => ih
    exact Option.bind_eq_some_iff.2 ⟨_, rfl, mapM_eq_some_iff.2 hsame⟩
  | @optional _ format v w hedit ih =>
    obtain ⟨hv, hw⟩ := hedit.not_isNull
    replace ha : (if v.isNull then some none else (format.interpret v).map some) = some a := ha
    show (if w.isNull then some none else (format.interpret w).map some) = some a
    rw [hv, if_neg Bool.false_ne_true] at ha
    rw [hw, if_neg Bool.false_ne_true]
    obtain ⟨b, hb, rfl⟩ := Option.map_eq_some_iff.1 ha
    exact Option.map_eq_some_iff.2 ⟨b, ih hb, rfl⟩
  | map _ ih =>
    obtain ⟨b, hb, rfl⟩ := Option.map_eq_some_iff.1 ha
    exact Option.map_eq_some_iff.2 ⟨b, ih hb, rfl⟩

theorem Edits.interpret_eq (h : format.Edits d d') {a : α} (ha : format.interpret d = some a) :
    format.interpret d' = some a := by
  induction h with
  | refl => exact ha
  | tail _ hedit ih => exact hedit.interpret_eq ih

end Format

end HealthService
