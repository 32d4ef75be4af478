import HealthService.Format.JsonPrinter
import HealthService.Format.JsonReader
import HealthService.Proofs.Json.Ordered
import Mathlib.Data.List.TakeWhile

/-!
# Formats are read back

A format says how values of a type are written and how they are read, and the two have to agree.  They
do so for every value that is legible (`Format.Legible`): a text that has to be understood is understood
as the value for which it was written, a value that is not written is the one that is put in when it is
missing, no two members of a record have one key, and the value is not nested too deeply.

* `Format.readJson_printJson` — **what is written of a legible value is read as it**, whatever follows,
  for every format; the induction is on the format.
* `Members.fills_written` — the members of a record, one after the other, fill its state.
* `Format.ofJson_printJson` — so is a whole document, with blanks after it.
-/

namespace HealthService

open Json

/-! ## Legible values -/

/-- Whether no value of a format is written as nothing. -/
def Format.isPresent : {α : Type} → Format α → Bool
  | _, .optional _ => false
  | _, .any => false
  | _, .map format _ _ _ => format.isPresent
  | _, _ => true

/-- The names of the members that a record names. -/
def Members.names : {σ : Type} → Members σ → List String
  | _, .nil => []
  | _, .cons key _ _ _ rest => key :: rest.names
  | _, .others => []

/-- The members that a record keeps without naming them. -/
def Members.extras : {σ : Type} → Members σ → σ → Json.Members
  | _, .nil, _ => []
  | _, .cons _ _ _ _ rest, (_, s) => rest.extras s
  | _, .others, ms => ms

/-- No two members of a record with certain values have one key. -/
structure Members.Apart {σ : Type} (m : Members σ) (s : σ) : Prop where
  names : m.names.Nodup
  extras : ∀ x ∈ m.extras s, x.1 ∉ m.names

mutual

/-- A value that is read as what was written, if so many levels may be opened. -/
def Format.Legible : {α : Type} → Format α → Nat → α → Prop
  | _, .text, _, _ => True
  | _, .bool, _, _ => True
  | _, .unsigned bits, _, _ => bits ≤ 64
  | _, .parsed _ read write, _, a => read (write a) = .ok a
  | _, .choice _ _ _, _, _ => True
  | _, .optional _, _, none => True
  | _, .optional format, levels, some a => format.isPresent = true ∧ format.Legible levels a
  | _, .list item, levels, as => 0 < levels ∧ ∀ a ∈ as, item.Legible (levels - 1) a
  | _, .any, levels, j => j.Exact ∧ j.Ordered ∧ j.depth ≤ levels
  | _, .record _ members _ parts _, levels, a =>
    0 < levels ∧ members.Apart (parts a) ∧ members.Legible (levels - 1) (parts a)
  | _, .map format _ part _, levels, b => format.Legible levels (part b)

/-- Values of the members of a record each of which is read as what was written of it, or put in if
nothing was. -/
def Members.Legible : {σ : Type} → Members σ → Nat → σ → Prop
  | _, .nil, _, _ => True
  | _, .cons key format fallback hidden rest, levels, (a, s) =>
    (if hidden a then Members.fill key format fallback = .ok a else format.Legible levels a) ∧
      rest.Legible levels s
  | _, .others, levels, ms =>
    InOrder ms ∧ ∀ m ∈ ms, m.2.Exact ∧ m.2.Ordered ∧ m.2.depth ≤ levels

end

section Legible

variable {α β : Type} {levels : Nat} {key : String} {format : Format α} {rest : Members β}

@[simp] theorem Format.legible_text (s : String) : Format.text.Legible levels s := trivial

@[simp] theorem Format.legible_bool (b : Bool) : Format.bool.Legible levels b := trivial

@[simp] theorem Format.legible_uint16 (n : UInt16) : Format.uint16.Legible levels n :=
  show 16 ≤ 64 by decide

@[simp] theorem Format.legible_uint64 (n : UInt64) : Format.uint64.Legible levels n :=
  show 64 ≤ 64 by decide

@[simp] theorem Format.legible_choice {values : List (String × α)} {nameOf : α → String}
    (hvalues : ∀ a, values.lookup (nameOf a) = some a) (a : α) :
    (Format.choice values nameOf hvalues).Legible levels a := trivial

@[simp] theorem Format.legible_parsed {expected : String} {read : String → Except String α}
    {write : α → String} {a : α} :
    (Format.parsed expected read write).Legible levels a ↔ read (write a) = .ok a := Iff.rfl

theorem Format.legible_optional {o : Option α} (hpresent : format.isPresent = true) :
    format.optional.Legible levels o ↔ ∀ a ∈ o, format.Legible levels a := by
  cases o with
  | none => exact ⟨fun _ a ha => (by cases ha), fun _ => trivial⟩
  | some a =>
    constructor
    · rintro ⟨-, h⟩ b hb
      obtain rfl := Option.some.inj hb
      exact h
    · exact fun h => ⟨hpresent, h a rfl⟩

theorem Format.legible_list {as : List α} :
    format.list.Legible levels as ↔ 0 < levels ∧ ∀ a ∈ as, format.Legible (levels - 1) a := Iff.rfl

/-- A record is legible if its members are, which have different keys. -/
theorem Format.legible_record {σ : Type} {name : String} {members : Members σ} {build : σ → α}
    {parts : α → σ} {hbuild : ∀ a, build (parts a) = a} {a : α} :
    (Format.record name members build parts hbuild).Legible levels a ↔
      0 < levels ∧ members.Apart (parts a) ∧ members.Legible (levels - 1) (parts a) := Iff.rfl

@[simp] theorem Members.legible_nil : Members.nil.Legible levels () := trivial

@[simp] theorem Members.legible_required {a : α} {s : β} :
    (Members.required key format rest).Legible levels (a, s) ↔
      format.Legible levels a ∧ rest.Legible levels s := Iff.rfl

@[simp] theorem Members.legible_withDefault {value a : α} {s : β} :
    (Members.withDefault key format value rest).Legible levels (a, s) ↔
      format.Legible levels a ∧ rest.Legible levels s := Iff.rfl

/-- A member that is not written when it is nothing is put in as nothing. -/
theorem Members.legible_omitted {o : Option α} {s : β} (hpresent : format.isPresent = true) :
    (Members.omitted key format rest).Legible levels (o, s) ↔
      (∀ a ∈ o, format.Legible levels a) ∧ rest.Legible levels s := by
  refine and_congr_left fun _ => ?_
  cases o with
  | none => exact ⟨fun _ a ha => (by cases ha), fun _ => rfl⟩
  | some a => exact Format.legible_optional hpresent

@[simp] theorem Members.legible_omitted_text {o : Option String} {s : β} :
    (Members.omitted key .text rest).Legible levels (o, s) ↔ rest.Legible levels s := by
  rw [Members.legible_omitted rfl]
  simp

end Legible

/-- A record that keeps no other members has only those that it names. -/
theorem Members.extras_eq_nil : {σ : Type} → (m : Members σ) → m.isOpen = false → (s : σ) →
    m.extras s = []
  | _, .nil, _, _ => rfl
  | _, .cons _ _ _ _ rest, h, (_, s) => rest.extras_eq_nil h s
  | _, .others, h, _ => by cases h

/-- A record that keeps no other members, and whose members have different names, is legible if these
are. -/
theorem Format.legible_closed {α σ : Type} {name : String} {members : Members σ} {build : σ → α}
    {parts : α → σ} {hbuild : ∀ a, build (parts a) = a} {levels : Nat} {a : α}
    (hclosed : members.isOpen = false) (hnames : members.names.Nodup) :
    (Format.record name members build parts hbuild).Legible levels a ↔
      0 < levels ∧ members.Legible (levels - 1) (parts a) := by
  have hapart : members.Apart (parts a) :=
    ⟨hnames, by simp [members.extras_eq_nil hclosed (parts a)]⟩
  exact and_congr_right fun _ => and_iff_right hapart

/-! ## How written values begin -/

/-- What is written begins neither with a blank nor like the end of a list, and like the word for
nothing only where there may be nothing. -/
theorem Format.begins : {α : Type} → (format : Format α) → {levels : Nat} → {a : α} →
    format.Legible levels a → ∃ b bs, Utf8.encode (format.printJson a) = b :: bs ∧
      Blank.isAsciiByte b = false ∧ b ≠ 0x5D ∧ (format.isPresent = true → b ≠ 0x6E)
  | _, .text, _, s, _ => ⟨0x22, _, encode_quote s, by decide, by decide, fun _ => by decide⟩
  | _, .bool, _, b, _ => by
    cases b <;> exact ⟨_, _, rfl, by decide, by decide, fun _ => by decide⟩
  | _, .unsigned _, _, n, _ => by
    obtain ⟨b, bs, hbytes, hdigit⟩ := encode_ofNat n.val
    have hb := Or.inr (a := b = 0x2D) hdigit
    exact ⟨b, bs, hbytes, isAsciiByte_of_begins hb, ne_of_begins hb (by decide),
      fun _ => ne_of_begins hb (by decide)⟩
  | _, .parsed _ _ write, _, a, _ =>
    ⟨0x22, _, encode_quote (write a), by decide, by decide, fun _ => by decide⟩
  | _, .choice _ nameOf _, _, a, _ =>
    ⟨0x22, _, encode_quote (nameOf a), by decide, by decide, fun _ => by decide⟩
  | _, .optional _, _, none, _ => ⟨0x6E, _, rfl, by decide, by decide, fun h => by cases h⟩
  | _, .optional format, _, some _, h => by
    obtain ⟨b, bs, hbytes, hblank, hclose, -⟩ := format.begins h.2
    exact ⟨b, bs, hbytes, hblank, hclose, fun h => by cases h⟩
  | _, .list _, _, _, _ => ⟨0x5B, _, rfl, by decide, by decide, fun _ => by decide⟩
  | _, .any, _, _, h => by
    obtain ⟨b, bs, hbytes, hblank, hclose⟩ := opens_print h.1
    exact ⟨b, bs, hbytes, hblank, hclose, fun h => by cases h⟩
  | _, .record _ _ _ _ _, _, _, _ => ⟨0x7B, _, rfl, by decide, by decide, fun _ => by decide⟩
  | _, .map format _ _ _, _, _, h => format.begins h

theorem Format.opens_printJson {α : Type} {format : Format α} {levels : Nat} {a : α}
    (h : format.Legible levels a) : Opens (format.printJson a) := by
  obtain ⟨b, bs, hbytes, hblank, hclose, -⟩ := format.begins h
  exact ⟨b, bs, hbytes, hblank, hclose⟩

/-! ## One kind of format at a time -/

namespace Format

variable {α : Type} {levels : Nat} {rest : Bytes}

theorem readJson_text (s : String) :
    Format.text.readJson levels (Utf8.encode (quote s) ++ rest) = .ok (s, rest) := by
  rw [readJson, readHead_text]
  rfl

theorem readJson_bool (b : Bool) :
    Format.bool.readJson levels (Utf8.encode (Json.print (.bool b)) ++ rest) = .ok (b, rest) := by
  cases b <;> rfl

/-- A natural number of at most sixty-four bits. -/
theorem readJson_unsigned {bits : Nat} (hbits : bits ≤ 64) (n : Fin (Nat.pow 2 bits))
    (hrest : Stops rest) :
    (Format.unsigned bits).readJson levels (Utf8.encode (Decimal.ofNat n.val) ++ rest) =
      .ok (n, rest) := by
  have hlt : n.val < 0x10000000000000000 :=
    n.isLt.trans_le (Nat.pow_le_pow_right (by decide) hbits)
  have hhead := readHead_int (WordInt.mk (n.val : Int) (by omega) (by omega)) hrest
  have hbound : boundInt bits (n.val : Int) = .ok n := by
    rw [boundInt, dif_pos ⟨Int.natCast_nonneg _, by rw [Int.toNat_natCast]; exact n.isLt⟩]
    rfl
  rw [readJson, readUnsigned]
  show (readHead (Utf8.encode (Decimal.ofInt (n.val : Int)) ++ rest)).bind _ = _
  rw [hhead]
  dsimp only [Except.bind]
  rw [hbound]

/-- A text that is understood as the value for which it was written. -/
theorem readJson_parsed {expected : String} {read : String → Except String α} {write : α → String}
    {a : α} (h : read (write a) = .ok a) :
    (Format.parsed expected read write).readJson levels (Utf8.encode (quote (write a)) ++ rest) =
      .ok (a, rest) := by
  rw [readJson, readParsed, readHead_text]
  dsimp only [bind, Except.bind]
  rw [h]

theorem readJson_choice {values : List (String × α)} {nameOf : α → String}
    (hvalues : ∀ a, values.lookup (nameOf a) = some a) (a : α) :
    (Format.choice values nameOf hvalues).readJson levels (Utf8.encode (quote (nameOf a)) ++ rest) =
      .ok (a, rest) := by
  rw [readJson, readChoice, encode_quote, List.cons_append, skipBlank_cons (by decide),
    List.append_assoc, List.singleton_append]
  dsimp only
  rw [if_pos rfl, readText_quote]
  show (pick values (nameOf a) rest).bind _ = _
  rw [pick, hvalues]
  rfl

/-- The word for nothing. -/
theorem readJson_none {format : Format α} :
    format.optional.readJson levels (Utf8.encode (Json.print .null) ++ rest) = .ok (none, rest) := by
  rw [readJson]
  rfl

/-- A value that is not nothing is not taken for nothing. -/
theorem readJson_some {format : Format α} {a : α} (hlegible : format.Legible levels a)
    (hpresent : format.isPresent = true)
    (hread : format.readJson levels (Utf8.encode (format.printJson a) ++ rest) = .ok (a, rest)) :
    format.optional.readJson levels (Utf8.encode (format.printJson a) ++ rest) =
      .ok (some a, rest) := by
  obtain ⟨b, bs, hbytes, hblank, -, hword⟩ := format.begins hlegible
  rw [hbytes, List.cons_append] at hread ⊢
  rw [readJson, skipBlank_cons hblank]
  split
  · rename_i heq
    exact absurd (List.cons.inj heq).1 (hword hpresent)
  · rw [hread]
    rfl

theorem readJson_list {item : Format α} {as : List α}
    (hopens : ∀ a ∈ as, Opens (item.printJson a))
    (hread : ∀ a ∈ as, ∀ rest, Stops rest →
      item.readJson levels (Utf8.encode (item.printJson a) ++ rest) = .ok (a, rest)) :
    item.list.readJson (levels + 1)
      (Utf8.encode (bracket (as.map fun a => item.printJson a)) ++ rest) = .ok (as, rest) := by
  rw [encode_bracket, readJson]
  show readItems (item.readJson levels) _ [] _ = _
  rw [List.drop_one, List.tail_cons,
    readItems_texts hopens hread (length_lt_encode as item.printJson _ _ _), List.map_id']

end Format

/-! ## The members of a record -/

/-- What is read into a larger state is read into the state itself. -/
theorem Offer.read_lift_iff {σ τ : Type} {offer : Offer σ} {put : σ → τ} {key : String} {s : σ} {u : τ}
    {levels : Nat} {b rest : Bytes} :
    (offer.lift put).read key (put s) levels b = .ok (u, rest) ↔
      ∃ t, u = put t ∧ offer.read key s levels b = .ok (t, rest) := by
  cases offer with
  | unknown =>
    constructor
    · intro h
      obtain ⟨c, hcolon, h⟩ := bind_eq_ok_iff.1 h
      obtain ⟨c', hskip, h⟩ := bind_eq_ok_iff.1 h
      obtain ⟨rfl, rfl⟩ := Prod.mk.inj (Except.ok.inj h)
      exact ⟨s, rfl, bind_eq_ok_iff.2 ⟨c, hcolon, bind_eq_ok_iff.2 ⟨c', hskip, rfl⟩⟩⟩
    · rintro ⟨t, rfl, h⟩
      obtain ⟨c, hcolon, h⟩ := bind_eq_ok_iff.1 h
      obtain ⟨c', hskip, h⟩ := bind_eq_ok_iff.1 h
      obtain ⟨rfl, rfl⟩ := Prod.mk.inj (Except.ok.inj h)
      exact bind_eq_ok_iff.2 ⟨c, hcolon, bind_eq_ok_iff.2 ⟨c', hskip, rfl⟩⟩
  | repeated =>
    constructor
    · intro h
      cases h
    · rintro ⟨t, -, h⟩
      cases h
  | take read =>
    constructor
    · intro h
      obtain ⟨c, hcolon, h⟩ := bind_eq_ok_iff.1 h
      obtain ⟨⟨t, c'⟩, hread, h⟩ := bind_eq_ok_iff.1 h
      obtain ⟨rfl, rfl⟩ := Prod.mk.inj (Except.ok.inj h)
      exact ⟨t, rfl, bind_eq_ok_iff.2 ⟨c, hcolon, hread⟩⟩
    · rintro ⟨t, rfl, h⟩
      obtain ⟨c, hcolon, h⟩ := bind_eq_ok_iff.1 h
      exact bind_eq_ok_iff.2 ⟨c, hcolon, bind_eq_ok_iff.2 ⟨(t, rest), h, rfl⟩⟩

namespace Members

/-- The keys of the members that are written, with the texts of their values. -/
def written : {σ : Type} → Members σ → σ → List (String × List Char)
  | _, .nil, _ => []
  | _, .cons key format _ hidden rest, (a, s) =>
    if hidden a then rest.written s else (key, format.printJson a) :: rest.written s
  | _, .others, ms => ms.map fun m => (m.1, Json.print m.2)

/-- The state of a record all of whose written members have been read. -/
def filled : {σ : Type} → (m : Members σ) → σ → m.State
  | _, .nil, _ => ()
  | _, .cons _ _ _ hidden rest, (a, s) => (if hidden a then none else some a, rest.filled s)
  | _, .others, ms => ms

/-- How the value of a member is read in some state. -/
def value {σ : Type} (m : Members σ) (levels : Nat) (key : String) (state : m.State) (b : Bytes) :
    Except Fault (m.State × Bytes) :=
  (m.offer key state).read key state levels b

theorem printJson_eq : {σ : Type} → (m : Members σ) → (s : σ) →
    m.printJson s = (m.written s).map fun x => member x.1 x.2
  | _, .nil, _ => rfl
  | _, .cons _ _ _ hidden rest, (a, s) => by
    rw [printJson, written, rest.printJson_eq s]
    by_cases h : hidden a = true
    · rw [if_pos h, if_pos h]
    · rw [if_neg h, if_neg h, List.map_cons]
  | _, .others, ms => by
    rw [printJson, written, printMembers_eq, List.map_map]
    rfl

/-- What is written is a member that the record names or one that it keeps. -/
theorem key_of_written : {σ : Type} → (m : Members σ) → {s : σ} → {x : String × List Char} →
    x ∈ m.written s → x.1 ∈ m.names ∨ ∃ y ∈ m.extras s, y.1 = x.1
  | _, .nil, _, _, h => by cases h
  | _, .cons _ _ _ hidden rest, (a, s), x, h => by
    rw [written] at h
    by_cases hhidden : hidden a = true
    · rw [if_pos hhidden] at h
      exact (rest.key_of_written h).imp_left (List.mem_cons_of_mem _)
    · rw [if_neg hhidden] at h
      rcases List.mem_cons.1 h with rfl | h
      · exact Or.inl List.mem_cons_self
      · exact (rest.key_of_written h).imp_left (List.mem_cons_of_mem _)
  | _, .others, _, _, h => by
    obtain ⟨m, hm, rfl⟩ := List.mem_map.1 h
    exact Or.inr ⟨m, hm, rfl⟩

section Cons

variable {α β : Type} {key : String} {format : Format α} {fallback : Option α} {hidden : α → Bool}
  {rest : Members β}

theorem finish_cons (o : Option α) (t : rest.State) :
    (Members.cons key format fallback hidden rest).finish (o, t) =
      (match o with
        | some a => Except.ok a
        | none => fill key format fallback).bind fun a =>
          (rest.finish t).bind fun s => .ok (a, s) := by
  cases o <;> rfl

theorem offer_cons_of_ne {k : String} (h : k ≠ key) (s : Option α × rest.State) :
    (Members.cons key format fallback hidden rest).offer k s =
      (rest.offer k s.2).lift fun t => (s.1, t) := by
  show (if k = key then _ else _) = _
  rw [if_neg h]
  rfl

theorem offer_cons_self (t : rest.State) :
    (Members.cons key format fallback hidden rest).offer key (none, t) =
      .take fun levels b => (format.readJson levels b).bind fun r => .ok ((some r.1, t), r.2) := by
  show (if key = key then _ else _) = _
  rw [if_pos rfl]
  rfl

theorem offer_cons_repeated (a : α) (t : rest.State) :
    (Members.cons key format fallback hidden rest).offer key (some a, t) = .repeated := by
  show (if key = key then _ else _) = _
  rw [if_pos rfl]

/-- What the members after one do to the state, they do to the state with that one. -/
theorem fills_cons {levels : Nat} (o : Option α) {xs : List (String × List Char)} {t u : rest.State}
    (h : Fills (rest.value levels) xs t u) (hkeys : ∀ x ∈ xs, x.1 ≠ key) :
    Fills ((Members.cons key format fallback hidden rest).value levels) xs (o, t) (o, u) := by
  induction h with
  | nil t => exact .nil _
  | @cons k v xs t t' u hread _ ih =>
    obtain ⟨hk, hkeys⟩ := List.forall_mem_cons.1 hkeys
    refine .cons (fun b hb => ?_) (ih hkeys)
    show ((Members.cons key format fallback hidden rest).offer k (o, t)).read k _ levels _ = _
    rw [offer_cons_of_ne hk]
    exact Offer.read_lift_iff.2 ⟨t', rfl, hread b hb⟩

end Cons

/-- What was not written is put in. -/
theorem finish_filled : {σ : Type} → (m : Members σ) → {levels : Nat} → {s : σ} →
    m.Legible levels s → m.finish (m.filled s) = .ok s
  | _, .nil, _, _, _ => rfl
  | _, .cons key format fallback hidden rest, levels, (a, s), h => by
    obtain ⟨ha, hs⟩ : (if hidden a then fill key format fallback = .ok a
      else format.Legible levels a) ∧ rest.Legible levels s := h
    have hrest := rest.finish_filled hs
    rw [filled]
    by_cases hhidden : hidden a = true
    · rw [if_pos hhidden] at ha ⊢
      rw [finish_cons, hrest]
      show (fill key format fallback).bind _ = _
      rw [ha]
      rfl
    · rw [if_neg hhidden, finish_cons, hrest]
      rfl
  | _, .others, _, _, _ => rfl

/-- The members that are kept as they are. -/
theorem fills_others {levels : Nat} {ms : Json.Members} (horder : InOrder ms)
    (hvalues : ∀ m ∈ ms, m.2.Exact ∧ m.2.Ordered ∧ m.2.depth ≤ levels) :
    Fills (Members.others.value levels) (Members.others.written ms) ([] : Json.Members) ms := by
  have hread : ∀ m ∈ ms, ∀ (acc : Json.Members) rest, Stops rest →
      Members.others.value levels m.1 acc (0x3A :: (Utf8.encode (Json.print m.2) ++ rest)) =
        .ok (insertMember m.1 m.2 acc, rest) := by
    intro m hm acc rest hrest
    obtain ⟨hexact, hordered, hdepth⟩ := hvalues m hm
    show (readAny levels (Utf8.encode (Json.print m.2) ++ rest)).bind _ = _
    rw [readAny_print hexact hdepth hrest, sorted_of_ordered hordered]
    rfl
  have hfills := fills_foldl hread []
  rwa [foldl_insertMember [] horder] at hfills

end Members

/-! ## All formats -/

mutual

/-- **What is written of a legible value is read as it**, whatever follows that does not go on with a
number. -/
theorem Format.readJson_printJson : {α : Type} → (format : Format α) → {levels : Nat} → {a : α} →
    format.Legible levels a → {rest : Bytes} → Stops rest →
    format.readJson levels (Utf8.encode (format.printJson a) ++ rest) = .ok (a, rest)
  | _, .text, _, s, _, _, _ => Format.readJson_text s
  | _, .bool, _, b, _, _, _ => Format.readJson_bool b
  | _, .unsigned _, _, n, h, _, hrest => Format.readJson_unsigned h n hrest
  | _, .parsed _ _ _, _, _, h, _, _ => Format.readJson_parsed h
  | _, .choice _ _ hvalues, _, a, _, _, _ => Format.readJson_choice hvalues a
  | _, .optional _, _, none, _, _, _ => Format.readJson_none
  | _, .optional format, _, some _, h, _, hrest =>
    Format.readJson_some h.2 h.1 (format.readJson_printJson h.2 hrest)
  | _, .list item, levels + 1, _, h, _, _ =>
    Format.readJson_list (fun a ha => item.opens_printJson (h.2 a ha))
      fun a ha _ hrest => item.readJson_printJson (h.2 a ha) hrest
  | _, .any, levels, j, h, rest, hrest => by
    obtain ⟨hexact, hordered, hdepth⟩ := h
    have hread := readAny_print hexact hdepth hrest
    rwa [sorted_of_ordered hordered] at hread
  | _, .record _ members build parts hbuild, levels + 1, a, h, rest, _ => by
    obtain ⟨-, hapart, (hmembers : members.Legible levels (parts a))⟩ := h
    have hfills := members.fills_written hmembers hapart
    rw [Format.printJson, members.printJson_eq, encode_brace, Format.readJson]
    show (readMembers (members.value levels) _ true members.start _).bind _ = _
    rw [List.drop_one, List.tail_cons, readMembers_fills hfills (length_lt_encode _ _ _ _ _)]
    dsimp only [Except.bind]
    rw [members.finish_filled hmembers]
    exact congrArg (fun a => Except.ok (a, rest)) (hbuild a)
  | _, .map format make part hmake, _, b, h, rest, hrest => by
    rw [Format.printJson, Format.readJson]
    show (format.readJson _ (Utf8.encode (format.printJson (part b)) ++ rest)).bind _ = _
    rw [format.readJson_printJson h hrest]
    exact congrArg (fun b => Except.ok (b, rest)) (hmake b)

/-- **The written members of a record fill its state**, one after the other. -/
theorem Members.fills_written : {σ : Type} → (m : Members σ) → {levels : Nat} → {s : σ} →
    m.Legible levels s → m.Apart s →
    Fills (m.value levels) (m.written s) m.start (m.filled s)
  | _, .nil, _, _, _, _ => .nil _
  | _, .cons key format fallback hidden rest, levels, (a, s), h, hapart => by
    obtain ⟨ha, hs⟩ : (if hidden a then Members.fill key format fallback = .ok a
      else format.Legible levels a) ∧ rest.Legible levels s := h
    obtain ⟨hkey, hnames⟩ := List.nodup_cons.1 hapart.names
    have hextras : ∀ x ∈ rest.extras s, x.1 ≠ key ∧ x.1 ∉ rest.names :=
      fun x hx => not_or.1 fun h => hapart.extras x hx (List.mem_cons.2 h)
    -- No later key is this one, so nothing that follows is offered to this member again.
    have hothers : ∀ x ∈ rest.written s, x.1 ≠ key := by
      rintro x hx rfl
      rcases rest.key_of_written hx with hname | ⟨y, hy, heq⟩
      · exact hkey hname
      · exact (hextras y hy).1 heq
    have hrest := rest.fills_written hs ⟨hnames, fun x hx => (hextras x hx).2⟩
    rw [Members.written, Members.filled]
    by_cases hhidden : hidden a = true
    · rw [if_pos hhidden, if_pos hhidden]
      exact Members.fills_cons none hrest hothers
    · rw [if_neg hhidden] at ha
      rw [if_neg hhidden, if_neg hhidden]
      refine .cons (fun b hb => ?_) (Members.fills_cons (some a) hrest hothers)
      show ((Members.cons key format fallback hidden rest).offer key (none, rest.start)).read key _
        levels _ = _
      rw [Members.offer_cons_self]
      show (format.readJson levels (Utf8.encode (format.printJson a) ++ b)).bind _ = _
      rw [format.readJson_printJson ha hb]
      rfl
  | _, .others, _, _, h, _ => Members.fills_others h.1 h.2

end

/-- **A document is read back**, with blanks after it. -/
theorem Format.ofJson_printJson {α : Type} {format : Format α} {a : α}
    (h : format.Legible maxLevels a) (blanks : Bytes)
    (hblanks : ∀ b ∈ blanks, Blank.isJsonByte b = true) :
    format.ofJson (Utf8.encode (format.printJson a) ++ blanks) = .ok a := by
  have hstops : Stops blanks := by
    intro b hb
    have hblank := hblanks b (List.mem_of_mem_head? hb)
    simp only [Blank.isJsonByte, Bool.or_eq_true, beq_iff_eq] at hblank
    rcases hblank with ((rfl | rfl) | rfl) | rfl <;> decide
  have hskip : skipBlank blanks = [] := List.dropWhile_eq_nil_iff.2 hblanks
  have hdocument : format.readDocument (Utf8.encode (format.printJson a) ++ blanks) = .ok a := by
    show (format.readJson maxLevels _).bind finish = _
    rw [format.readJson_printJson h hstops]
    show finish (a, blanks) = _
    rw [finish, hskip]
  rw [ofJson, hdocument]

end HealthService
