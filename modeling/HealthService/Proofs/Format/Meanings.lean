import HealthService.Proofs.Format.ReadBack
import HealthService.Proofs.Json.Written
import Mathlib.Data.List.Forall2

/-!
# What documents mean

A format gives a document its meaning, whichever text it has: `Format.interpret` is the value that the tree
of a document stands for, if it stands for one.  The members of a record may come in any order, each of
those that it names at most once; the others are ignored.

* `Members.collect_eq_some_iff` — **the order of the members does not matter**: reading them one after the
  other leads to the values that they have by name.
* `Format.exact_of_interpret` — no double occurs in a document with a meaning.
-/

namespace HealthService

open Json

/-! ## Values that are looked at -/

namespace Json.Doc

/-- The text that a value is. -/
def text? : Doc → Option String
  | .scalar (.text s) => some s
  | _ => none

/-- The truth value that a value is. -/
def bool? : Doc → Option Bool
  | .scalar (.bool b) => some b
  | _ => none

/-- The integer that a value is. -/
def int? : Doc → Option Int
  | .scalar (.number (.int n)) => some n.val
  | _ => none

/-- The items of the list that a value is. -/
def items? : Doc → Option (List Doc)
  | .list ds => some ds
  | _ => none

/-- The name that is chosen: a text, or the one member of an object, which is then nothing. -/
def choice? : Doc → Option String
  | .scalar (.text s) => some s
  | .object [(s, .scalar .null)] => some s
  | _ => none

/-- Whether a value is nothing. -/
def isNull : Doc → Bool
  | .scalar .null => true
  | _ => false

/-- Whether a value is only passed over. -/
def isIgnored : Doc → Bool
  | .ignored => true
  | _ => false

theorem text?_eq_some_iff {d : Doc} {s : String} : d.text? = some s ↔ d = .scalar (.text s) := by
  cases d with
  | scalar x => cases x <;> simp [text?]
  | _ => simp [text?]

theorem bool?_eq_some_iff {d : Doc} {b : Bool} : d.bool? = some b ↔ d = .scalar (.bool b) := by
  cases d with
  | scalar x => cases x <;> simp [bool?]
  | _ => simp [bool?]

theorem int?_eq_some_iff {d : Doc} {n : Int} :
    d.int? = some n ↔ ∃ w : WordInt, d = .scalar (.number (.int w)) ∧ w.val = n := by
  cases d with
  | scalar x =>
    cases x with
    | number x => cases x <;> simp [int?]
    | _ => simp [int?]
  | _ => simp [int?]

theorem items?_eq_some_iff {d : Doc} {ds : List Doc} : d.items? = some ds ↔ d = .list ds := by
  cases d <;> simp [items?]

theorem choice?_eq_some_iff {d : Doc} {s : String} :
    d.choice? = some s ↔ d = .scalar (.text s) ∨ d = .object [(s, .scalar .null)] := by
  unfold choice?
  split
  · simp
  · simp
  · rename_i htext hobject
    refine iff_of_false (by simp) ?_
    rintro (rfl | rfl)
    · exact htext s rfl
    · exact hobject s rfl

theorem isNull_iff {d : Doc} : d.isNull = true ↔ d = .scalar .null := by
  cases d with
  | scalar x => cases x <;> simp [isNull]
  | _ => simp [isNull]

theorem isIgnored_iff {d : Doc} : d.isIgnored = true ↔ d = .ignored := by
  cases d <;> simp [isIgnored]

end Json.Doc

/-! ## Meanings -/

/-- The value of a member out of all members with its key, of which there may be one. -/
def Members.only {α : Type} (absent : Option α) (read : Doc → Option α) :
    List (String × Doc) → Option α
  | [] => absent
  | [m] => read m.2
  | _ => none

/-- The value of a member out of all items from its place on. -/
def Members.next {α : Type} (absent : Option α) (read : Doc → Option α) : List Doc → Option α
  | [] => absent
  | d :: _ => read d

mutual

/-- The value that a document stands for. -/
def Format.interpret : {α : Type} → Format α → Doc → Option α
  | _, .text, d => d.text?
  | _, .bool, d => d.bool?
  | _, .unsigned bits, d => d.int?.bind fun n => (Format.boundInt bits n).toOption
  | _, .parsed _ read _, d => d.text?.bind fun s => (read s).toOption
  | _, .choice values _ _, d => d.choice?.bind fun name => values.lookup name
  | _, .optional format, d => if d.isNull then some none else (format.interpret d).map some
  | _, .list item, d => d.items?.bind fun ds => ds.mapM item.interpret
  | _, .any, _ => none
  | _, .record _ members build _ _, d =>
    match d with
    | .list ds => (members.line ds).map build
    | .object ms => (members.collect ms).map build
    | _ => none
  | _, .map format make _ _, d => (format.interpret d).map make

/-- The values of the members of a record by name; others are ignored. -/
def Members.collect : {σ : Type} → Members σ → List (String × Doc) → Option σ
  | _, .nil, ms => if ms.all fun m => m.2.isIgnored then some () else none
  | _, .cons key format fallback _ rest, ms => do
    let a ← Members.only (Members.fill key format fallback).toOption format.interpret
      (ms.filter fun m => m.1 = key)
    let s ← rest.collect (ms.filter fun m => m.1 ≠ key)
    some (a, s)
  | _, .others, ms => if ms.isEmpty then some ([] : Json.Members) else none

/-- The values of the members of a record in order; those at the end may be left out. -/
def Members.line : {σ : Type} → Members σ → List Doc → Option σ
  | _, .nil, ds => if ds.isEmpty then some () else none
  | _, .cons _ format fallback _ rest, ds => do
    let a ← Members.next fallback format.interpret ds
    let s ← rest.line ds.tail
    some (a, s)
  | _, .others, _ => none

end

mutual

/-- How deeply lists and objects are nested at most in what a format accepts. -/
def Format.depth : {α : Type} → Format α → Nat
  | _, .choice _ _ _ => 1
  | _, .optional format => format.depth
  | _, .list item => item.depth + 1
  | _, .record _ members _ _ _ => members.depth + 1
  | _, .map format _ _ _ => format.depth
  | _, _ => 0

/-- How deeply the values of members are nested at most. -/
def Members.depth : {σ : Type} → Members σ → Nat
  | _, .nil => 0
  | _, .cons _ format _ _ rest => max format.depth rest.depth
  | _, .others => 0

end

mutual

/-- Whether a format knows the shapes of all values in it. -/
def Format.isPlain : {α : Type} → Format α → Bool
  | _, .optional format => format.isPlain
  | _, .list item => item.isPlain
  | _, .any => false
  | _, .record _ members _ _ _ => members.isPlain
  | _, .map format _ _ _ => format.isPlain
  | _, _ => true

/-- Whether a record knows the shapes of all values in it. -/
def Members.isPlain : {σ : Type} → Members σ → Bool
  | _, .nil => true
  | _, .cons _ format _ _ rest => format.isPlain && rest.isPlain
  | _, .others => false

end

/-! ## Members one after the other -/

namespace Members

/-- What a member that is read does to the state of a record. -/
def absorb : {σ : Type} → (m : Members σ) → m.State → String → Doc → Option m.State
  | _, .nil, s, _, d => if d.isIgnored then some s else none
  | _, .cons key format _ _ rest, s, k, d =>
    if k = key then
      match s.1 with
      | some _ => none
      | none => (format.interpret d).map fun a => (some a, s.2)
    else (rest.absorb s.2 k d).map fun t => (s.1, t)
  | _, .others, _, _, _ => none

/-- The place of a member after some values for it have been read, of which there may be only one. -/
def occupy {α : Type} (format : Format α) : Option α → List (String × Doc) → Option (Option α)
  | o, [] => some o
  | none, m :: ms => (format.interpret m.2).bind fun a => occupy format (some a) ms
  | some _, _ :: _ => none

section Cons

variable {α β : Type} {key : String} {format : Format α} {fallback : Option α} {hidden : α → Bool}
  {rest : Members β}

theorem absorb_cons_of_ne {k : String} (h : k ≠ key) (o : Option α) (t : rest.State) (d : Doc) :
    (Members.cons key format fallback hidden rest).absorb (o, t) k d =
      (rest.absorb t k d).map fun u => (o, u) := by
  show (if k = key then _ else _) = _
  rw [if_neg h]
  rfl

theorem absorb_cons_self (t : rest.State) (d : Doc) :
    (Members.cons key format fallback hidden rest).absorb (none, t) key d =
      (format.interpret d).map fun a => (some a, t) := by
  show (if key = key then _ else _) = _
  rw [if_pos rfl]
  rfl

theorem absorb_cons_repeated (a : α) (t : rest.State) (d : Doc) :
    (Members.cons key format fallback hidden rest).absorb (some a, t) key d = none := by
  show (if key = key then _ else _) = _
  rw [if_pos rfl]

/-- The members with one key and the others are put into their places apart from each other. -/
theorem putAll_cons_absorb_iff {ms : List (String × Doc)} {o o' : Option α} {t t' : rest.State} :
    putAll (Members.cons key format fallback hidden rest).absorb (o, t) ms = some (o', t') ↔
      occupy format o (ms.filter fun m => m.1 = key) = some o' ∧
        putAll rest.absorb t (ms.filter fun m => m.1 ≠ key) = some t' := by
  induction ms generalizing o t with
  | nil =>
    show some (o, t) = some (o', t') ↔ some o = some o' ∧ some t = some t'
    simp
  | cons m ms ih =>
    obtain ⟨k, d⟩ := m
    refine Iff.trans putAll_cons_iff ?_
    by_cases hk : k = key
    · subst hk
      rw [List.filter_cons_of_pos (by simp), List.filter_cons_of_neg (by simp)]
      constructor
      · rintro ⟨u, hu, hms⟩
        cases o with
        | some a => cases (absorb_cons_repeated a t d).symm.trans hu
        | none =>
          obtain ⟨a, ha, rfl⟩ := Option.map_eq_some_iff.1 ((absorb_cons_self t d).symm.trans hu)
          obtain ⟨hplace, hrest⟩ := ih.1 hms
          exact ⟨Option.bind_eq_some_iff.2 ⟨a, ha, hplace⟩, hrest⟩
      · rintro ⟨hplace, hrest⟩
        cases o with
        | some a => cases hplace
        | none =>
          obtain ⟨a, ha, hplace⟩ := Option.bind_eq_some_iff.1 hplace
          exact ⟨(some a, t), (absorb_cons_self t d).trans (Option.map_eq_some_iff.2 ⟨a, ha, rfl⟩),
            ih.2 ⟨hplace, hrest⟩⟩
    · rw [List.filter_cons_of_neg (by simpa using hk), List.filter_cons_of_pos (by simpa using hk)]
      constructor
      · rintro ⟨u, hu, hms⟩
        obtain ⟨v, hv, rfl⟩ := Option.map_eq_some_iff.1 ((absorb_cons_of_ne hk o t d).symm.trans hu)
        obtain ⟨hplace, hrest⟩ := ih.1 hms
        exact ⟨hplace, putAll_cons_iff.2 ⟨v, hv, hrest⟩⟩
      · rintro ⟨hplace, hrest⟩
        obtain ⟨v, hv, hrest⟩ := putAll_cons_iff.1 hrest
        exact ⟨(o, v), (absorb_cons_of_ne hk o t d).trans (Option.map_eq_some_iff.2 ⟨v, hv, rfl⟩),
          ih.2 ⟨hplace, hrest⟩⟩

/-- The members with one key and the others are looked at apart from each other. -/
theorem collect_cons_iff {ms : List (String × Doc)} {a : α} {s : β} :
    (Members.cons key format fallback hidden rest).collect ms = some (a, s) ↔
      only (fill key format fallback).toOption format.interpret (ms.filter fun m => m.1 = key) = some a ∧
        rest.collect (ms.filter fun m => m.1 ≠ key) = some s := by
  constructor
  · intro h
    obtain ⟨a', ha, h⟩ := Option.bind_eq_some_iff.1 h
    obtain ⟨s', hs, h⟩ := Option.bind_eq_some_iff.1 h
    obtain ⟨rfl, rfl⟩ := Prod.mk.inj (Option.some.inj h)
    exact ⟨ha, hs⟩
  · rintro ⟨ha, hs⟩
    exact Option.bind_eq_some_iff.2 ⟨a, ha, Option.bind_eq_some_iff.2 ⟨s, hs, rfl⟩⟩

/-- The value of a member is the one that has been read, or else what is put in. -/
theorem only_eq_some_iff {ms : List (String × Doc)} {a : α} :
    only (fill key format fallback).toOption format.interpret ms = some a ↔
      ∃ o, occupy format none ms = some o ∧
        (match o with
          | some a => .ok a
          | none => fill key format fallback) = Except.ok a := by
  match ms with
  | [] => cases hfill : fill key format fallback <;> simp [only, occupy, Except.toOption]
  | [m] => cases hm : format.interpret m.2 <;> simp [only, occupy, hm]
  | m :: m' :: ms => cases hm : format.interpret m.2 <;> simp [only, occupy, hm]

end Cons

theorem putAll_nil_absorb_iff {ms : List (String × Doc)} :
    putAll Members.nil.absorb () ms = some () ↔ (ms.all fun m => m.2.isIgnored) = true := by
  induction ms with
  | nil => exact iff_of_true rfl rfl
  | cons m ms ih =>
    refine Iff.trans putAll_cons_iff ?_
    rw [List.all_cons, Bool.and_eq_true, ← ih]
    constructor
    · rintro ⟨u, hu, hms⟩
      refine ⟨?_, hms⟩
      by_contra hm
      cases (if_neg hm : absorb .nil () m.1 m.2 = none).symm.trans hu
    · exact fun ⟨hm, hms⟩ => ⟨(), if_pos hm, hms⟩

/-- **The order of the members does not matter**: reading them one after the other leads to the values that
they have by name. -/
theorem collect_eq_some_iff : {σ : Type} → (m : Members σ) → {ms : List (String × Doc)} → {s : σ} →
    (m.collect ms = some s ↔ ∃ t, putAll m.absorb m.start ms = some t ∧ m.finish t = .ok s)
  | _, .nil, ms, s => by
    rw [collect]
    constructor
    · intro h
      split at h
      · rename_i hall
        exact ⟨(), putAll_nil_absorb_iff.2 hall, rfl⟩
      · cases h
    · rintro ⟨t, hput, -⟩
      rw [if_pos (putAll_nil_absorb_iff.1 hput)]
  | _, .cons key format fallback hidden rest, ms, (a, s) => by
    rw [collect_cons_iff, only_eq_some_iff, rest.collect_eq_some_iff]
    constructor
    · rintro ⟨⟨o, hplace, ho⟩, t, hput, hfinish⟩
      refine ⟨(o, t), putAll_cons_absorb_iff.2 ⟨hplace, hput⟩, (finish_cons o t).trans ?_⟩
      exact bind_eq_ok_iff.2 ⟨a, ho, bind_eq_ok_iff.2 ⟨s, hfinish, rfl⟩⟩
    · rintro ⟨⟨o, t⟩, hput, hfinish⟩
      obtain ⟨hplace, hrest⟩ := putAll_cons_absorb_iff.1 hput
      obtain ⟨a', ho, hfinish⟩ := bind_eq_ok_iff.1 ((finish_cons o t).symm.trans hfinish)
      obtain ⟨s', hs, hfinish⟩ := bind_eq_ok_iff.1 hfinish
      obtain ⟨rfl, rfl⟩ := Prod.mk.inj (Except.ok.inj hfinish)
      exact ⟨⟨o, hplace, ho⟩, t, hrest, hs⟩
  | _, .others, [], s => by
    rw [collect]
    constructor
    · intro h
      exact ⟨_, rfl, congrArg Except.ok (Option.some.inj h)⟩
    · rintro ⟨t, hput, hfinish⟩
      obtain rfl := Except.ok.inj hfinish
      exact hput
  | _, .others, m :: ms, s => by
    rw [collect]
    constructor
    · intro h
      cases h
    · rintro ⟨t, hput, -⟩
      obtain ⟨u, hu, -⟩ := putAll_cons_iff.1 hput
      cases hu

end Members

/-! ## Meanings of values -/

namespace Format

variable {α : Type}

/-- A value that is only passed over has no meaning. -/
theorem interpret_ignored : {α : Type} → (format : Format α) → format.interpret .ignored = none
  | _, .text => rfl
  | _, .bool => rfl
  | _, .unsigned _ => rfl
  | _, .parsed _ _ _ => rfl
  | _, .choice _ _ _ => rfl
  | _, .optional format => by
    show (format.interpret .ignored).map some = none
    rw [format.interpret_ignored]
    rfl
  | _, .list _ => rfl
  | _, .any => rfl
  | _, .record _ _ _ _ _ => rfl
  | _, .map format make _ _ => by
    show (format.interpret .ignored).map make = none
    rw [format.interpret_ignored]
    rfl

theorem toOption_eq_some_iff {ε : Type} {x : Except ε α} {a : α} : x.toOption = some a ↔ x = .ok a := by
  cases x <;> simp [Except.toOption]

theorem mapM_eq_some_iff {β : Type} {f : β → Option α} {bs : List β} {as : List α} :
    bs.mapM f = some as ↔ List.Forall₂ (fun b a => f b = some a) bs as := by
  induction bs generalizing as with
  | nil =>
    rw [List.mapM_nil, List.forall₂_nil_left_iff]
    exact Option.some_inj.trans eq_comm
  | cons b bs ih =>
    rw [List.mapM_cons, List.forall₂_cons_left_iff]
    constructor
    · intro h
      obtain ⟨a, ha, h⟩ := Option.bind_eq_some_iff.1 h
      obtain ⟨as', has, h⟩ := Option.bind_eq_some_iff.1 h
      exact ⟨a, as', ha, ih.1 has, (Option.some.inj h).symm⟩
    · rintro ⟨a, as', ha, has, rfl⟩
      exact Option.bind_eq_some_iff.2 ⟨a, ha, Option.bind_eq_some_iff.2 ⟨as', ih.2 has, rfl⟩⟩

end Format

theorem Json.Doc.exact_of_choice? {d : Doc} {s : String} (h : d.choice? = some s) : d.Exact := by
  rcases choice?_eq_some_iff.1 h with rfl | rfl
  · exact .scalar (.text s)
  · exact .object (List.forall_mem_singleton.2 (.scalar .null))

theorem Members.read_of_only {α : Type} {absent : Option α} {read : Doc → Option α}
    {ms : List (String × Doc)} {a : α} (h : only absent read ms = some a) {x : String × Doc} (hx : x ∈ ms) :
    read x.2 = some a := by
  match ms with
  | [y] =>
    obtain rfl := List.mem_singleton.1 hx
    exact h
  | _ :: _ :: _ => cases h

mutual

/-- No double occurs in a document with a meaning. -/
theorem Format.exact_of_interpret : {α : Type} → (format : Format α) → {d : Doc} → {a : α} →
    format.interpret d = some a → d.Exact
  | _, .text, d, s, h => by
    obtain rfl := Doc.text?_eq_some_iff.1 h
    exact .scalar (.text s)
  | _, .bool, d, b, h => by
    obtain rfl := Doc.bool?_eq_some_iff.1 h
    exact .scalar (.bool b)
  | _, .unsigned _, d, _, h => by
    obtain ⟨n, hn, -⟩ := Option.bind_eq_some_iff.1 h
    obtain ⟨w, rfl, -⟩ := Doc.int?_eq_some_iff.1 hn
    exact .scalar (.int w)
  | _, .parsed _ _ _, d, _, h => by
    obtain ⟨s, hs, -⟩ := Option.bind_eq_some_iff.1 h
    obtain rfl := Doc.text?_eq_some_iff.1 hs
    exact .scalar (.text s)
  | _, .choice _ _ _, d, _, h => by
    obtain ⟨s, hs, -⟩ := Option.bind_eq_some_iff.1 h
    exact Doc.exact_of_choice? hs
  | _, .optional format, d, o, h => by
    replace h : (if d.isNull then some none else (format.interpret d).map some) = some o := h
    split at h
    · rename_i hnull
      obtain rfl := Doc.isNull_iff.1 hnull
      exact .scalar .null
    · obtain ⟨a, ha, -⟩ := Option.map_eq_some_iff.1 h
      exact format.exact_of_interpret ha
  | _, .list item, d, as, h => by
    obtain ⟨ds, hds, has⟩ := Option.bind_eq_some_iff.1 h
    obtain rfl := Doc.items?_eq_some_iff.1 hds
    have hexact := (Format.mapM_eq_some_iff.1 has).imp fun d a ha => And.intro (item.exact_of_interpret ha) ha
    exact .list ((List.forall₂_and_left _ _).1 hexact).1
  | _, .any, _, _, h => by cases h
  | _, .record _ members _ _ _, .list ds, _, h => by
    obtain ⟨s, hs, -⟩ := Option.map_eq_some_iff.1 h
    exact .list (members.exact_of_line hs)
  | _, .record _ members _ _ _, .object ms, _, h => by
    obtain ⟨s, hs, -⟩ := Option.map_eq_some_iff.1 h
    exact .object (members.exact_of_collect hs)
  | _, .record _ _ _ _ _, .scalar _, _, h => by cases h
  | _, .record _ _ _ _ _, .ignored, _, h => by cases h
  | _, .map format _ _ _, d, _, h => by
    obtain ⟨a, ha, -⟩ := Option.map_eq_some_iff.1 h
    exact format.exact_of_interpret ha

/-- Nor does one in the values of members. -/
theorem Members.exact_of_collect : {σ : Type} → (m : Members σ) → {ms : List (String × Doc)} → {s : σ} →
    m.collect ms = some s → ∀ x ∈ ms, x.2.Exact
  | _, .nil, ms, _, h => by
    replace h : (if ms.all fun m => m.2.isIgnored then some () else none) = some _ := h
    split at h
    · rename_i hall
      intro x hx
      rw [Doc.isIgnored_iff.1 (List.all_eq_true.1 hall x hx)]
      exact .ignored
    · cases h
  | _, .cons key format fallback _ rest, ms, (a, s), h => by
    obtain ⟨ha, hs⟩ := Members.collect_cons_iff.1 h
    have hothers := rest.exact_of_collect hs
    intro x hx
    by_cases hkey : x.1 = key
    · have hmem : x ∈ ms.filter fun m => m.1 = key := List.mem_filter.2 ⟨hx, by simpa using hkey⟩
      exact format.exact_of_interpret (Members.read_of_only ha hmem)
    · exact hothers x (List.mem_filter.2 ⟨hx, by simpa using hkey⟩)
  | _, .others, [], _, _ => by simp
  | _, .others, _ :: _, _, h => by cases h

/-- Nor does one in the values of members without names. -/
theorem Members.exact_of_line : {σ : Type} → (m : Members σ) → {ds : List Doc} → {s : σ} →
    m.line ds = some s → ∀ d ∈ ds, d.Exact
  | _, .nil, [], _, _ => by simp
  | _, .nil, _ :: _, _, h => by cases h
  | _, .cons _ _ _ _ _, [], _, _ => by simp
  | _, .cons _ format _ _ rest, d :: ds, _, h => by
    obtain ⟨a, ha, h⟩ := Option.bind_eq_some_iff.1 h
    obtain ⟨s, hs, -⟩ := Option.bind_eq_some_iff.1 h
    exact List.forall_mem_cons.2 ⟨format.exact_of_interpret ha, rest.exact_of_line hs⟩
  | _, .others, _, _, h => by cases h

end

end HealthService
