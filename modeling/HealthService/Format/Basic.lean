import HealthService.Json.Fault

/-!
# Formats

A `Format α` says how values of a type `α` stand in a document, once for all notations: which
members a record has, which of them may be left out and what they are then, how numbers are bounded
and how texts are understood. Readers and printers of JSON, of YAML and of forms are defined by
recursion over formats, so that what one of them writes the others understand.

A record's members are read into a state with one place for each member (`Members.State`); a
member that did not occur is filled in by `Members.finish`.
-/

namespace HealthService

mutual

/-- How values of a type stand in a document. -/
inductive Format : Type → Type 1 where
  /-- A text. -/
  | text : Format String
  /-- A truth value. -/
  | bool : Format Bool
  /-- A natural number of so many bits. -/
  | unsigned (bits : Nat) : Format (Fin (Nat.pow 2 bits))
  /-- A text that has to be understood; `expected` names what it should be. -/
  | parsed {α : Type} (expected : String) (read : String → Except String α)
      (write : α → String) : Format α
  /-- One of some names. -/
  | choice {α : Type} (values : List (String × α)) (nameOf : α → String)
      (lookup_nameOf : ∀ a, values.lookup (nameOf a) = some a := by intro a; cases a <;> rfl) :
      Format α
  /-- Perhaps nothing. -/
  | optional {α : Type} (format : Format α) : Format (Option α)
  /-- Any number of values. -/
  | list {α : Type} (item : Format α) : Format (List α)
  /-- Any value. -/
  | any : Format Json
  /-- A record with a name and members; `build` and `parts` go between it and the tuple of its
  members. -/
  | record {σ α : Type} (name : String) (members : Members σ) (build : σ → α) (parts : α → σ)
      (build_parts : ∀ a, build (parts a) = a := by intro a; rfl) : Format α
  /-- A type that is another one in disguise. -/
  | map {α β : Type} (format : Format α) (make : α → β) (part : β → α)
      (make_part : ∀ b, make (part b) = b := by intro b; rfl) : Format β

/-- The members of a record and the tuple of their values. -/
inductive Members : Type → Type 1 where
  /-- No further members; others that occur are ignored. -/
  | nil : Members Unit
  /-- A member, with the value it has when it is left out, if it may be, and the values for which
  it is not written. -/
  | cons {α β : Type} (key : String) (format : Format α) (fallback : Option α) (hidden : α → Bool)
      (rest : Members β) : Members (α × β)
  /-- All other members, whatever they are. -/
  | others : Members Json.Members

end

namespace Format

/-- A natural number of sixteen bits. -/
def uint16 : Format UInt16 :=
  .map (.unsigned 16) (fun n => UInt16.ofNat n.val) (fun u => ⟨u.toNat, u.toNat_lt⟩)
    (by intro u; simp)

/-- A natural number of thirty-two bits. -/
def uint32 : Format UInt32 :=
  .map (.unsigned 32) (fun n => UInt32.ofNat n.val) (fun u => ⟨u.toNat, u.toNat_lt⟩)
    (by intro u; simp)

/-- A natural number of sixty-four bits. -/
def uint64 : Format UInt64 :=
  .map (.unsigned 64) (fun n => UInt64.ofNat n.val) (fun u => ⟨u.toNat, u.toNat_lt⟩)
    (by intro u; simp)

/-- What a value is when it is absent without a fallback: nothing, if it may be nothing. -/
def absent : {α : Type} → Format α → Option α
  | _, .optional _ => some none
  | _, _ => none

end Format

namespace Members

/-- A member that must occur. -/
def required {α β : Type} (key : String) (format : Format α) (rest : Members β) :
    Members (α × β) := .cons key format none (fun _ => false) rest

/-- A member that may be left out. -/
def withDefault {α β : Type} (key : String) (format : Format α) (value : α) (rest : Members β) :
    Members (α × β) := .cons key format (some value) (fun _ => false) rest

/-- A member that is not written when it is nothing. -/
def omitted {α β : Type} (key : String) (format : Format α) (rest : Members β) :
    Members (Option α × β) := .cons key (.optional format) (some none) Option.isNone rest

/-- How many members are named. -/
def count : {σ : Type} → Members σ → Nat
  | _, .nil => 0
  | _, .cons _ _ _ _ rest => rest.count + 1
  | _, .others => 0

/-- Whether other members are kept. -/
def isOpen : {σ : Type} → Members σ → Bool
  | _, .nil => false
  | _, .cons _ _ _ _ rest => rest.isOpen
  | _, .others => true

/-- What has been read of a record so far: one place for each member. -/
def State : {σ : Type} → Members σ → Type
  | _, .nil => Unit
  | _, .cons (α := α) _ _ _ _ rest => Option α × rest.State
  | _, .others => Json.Members

/-- Nothing has been read yet. -/
def start : {σ : Type} → (m : Members σ) → m.State
  | _, .nil => ()
  | _, .cons _ _ _ _ rest => (none, rest.start)
  | _, .others => ([] : Json.Members)

/-- The value of a member that did not occur. -/
def fill {α : Type} (key : String) (format : Format α) (fallback : Option α) :
    Except Mismatch α :=
  match fallback with
  | some a => .ok a
  | none =>
    match format.absent with
    | some a => .ok a
    | none => .error (.missingMember key)

/-- The tuple of members, those that did not occur filled in. -/
def finish : {σ : Type} → (m : Members σ) → m.State → Except Mismatch σ
  | _, .nil, _ => .ok ()
  | _, .cons key format fallback _ rest, s => do
    let a ← match s.1 with
      | some a => .ok a
      | none => fill key format fallback
    let r ← rest.finish s.2
    .ok (a, r)
  | _, .others, s => .ok s

/-- In words, a record with so many members. -/
def describe (name : String) (count : Nat) : String :=
  "struct " ++ name ++ " with " ++ String.ofList (Decimal.ofNat count)
    ++ if count = 1 then " element" else " elements"

end Members

end HealthService
