import HealthService.Format.Basic
import HealthService.Json.Reader

/-!
# Reading a format from JSON text

`Format.readJson` reads a value of a format. A record may be written as an object, in which the
members come in any order and unknown ones are passed over, or as a list of its members in order; a
record that keeps unknown members has to be an object. A choice may be written as its name alone or
as an object whose one member has that name and the value null.

A mismatch that concerns a whole record is noticed where its end was looked for.
-/

namespace HealthService

open Json

/-- What a record does with a key. -/
inductive Offer (σ : Type) where
  /-- The record has no such member. -/
  | unknown
  /-- The member has occurred before. -/
  | repeated
  /-- The member's value is read into the state. -/
  | take (read : Nat → Bytes → Except Fault (σ × Bytes))

/-- Carries an offer over to a larger state. -/
def Offer.lift {σ τ : Type} (offer : Offer σ) (put : σ → τ) : Offer τ :=
  match offer with
  | .unknown => .unknown
  | .repeated => .repeated
  | .take read => .take fun levels b => do
    let (s, rest) ← read levels b
    .ok (put s, rest)

/-- Reads the value of a member, or passes over it. -/
def Offer.read {σ : Type} (offer : Offer σ) (key : String) (state : σ) (levels : Nat) (b : Bytes) :
    Except Fault (σ × Bytes) :=
  match offer with
  | .unknown => do
    let rest ← readColon b
    let rest ← skipValue rest
    .ok (state, rest)
  | .repeated => fault (.shape (.repeatedMember key)) (stopOfEndObject b)
  | .take read => do
    let rest ← readColon b
    read levels rest

namespace Format

/-- A choice that is written as the one member of an object. -/
def readChoiceObject {α : Type} (pick : String → Bytes → Except Fault α) (b : Bytes) :
    Except Fault (α × Bytes) := do
  match ← readHead b with
  | .scalar (.text s) rest =>
    let a ← pick s rest
    let rest ← readColon rest
    match ← readHead rest with
    | .scalar .null rest =>
      match skipBlank rest with
      | [] => fault .endInObject []
      | c :: rest => if c = 0x7D then .ok (a, rest) else fault .expectedValue (c :: rest)
    | head => wrongType head "unit"
  | head => wrongType head "variant identifier"

/-- The value with a name. -/
def pick {α : Type} (values : List (String × α)) (name : String) (rest : Bytes) :
    Except Fault α :=
  match values.lookup name with
  | some a => .ok a
  | none => fault (.shape (.unknownVariant name (values.map Prod.fst))) rest

/-- Reads a choice. -/
def readChoice {α : Type} (values : List (String × α)) (levels : Nat) (b : Bytes) :
    Except Fault (α × Bytes) :=
  match skipBlank b with
  | [] => fault .endInValue []
  | c :: rest =>
    if c = 0x22 then do
      let (s, rest) ← readText rest
      let a ← pick values s rest
      .ok (a, rest)
    else if c = 0x7B then
      if levels = 0 then faultAhead .tooDeep (c :: rest)
      else readChoiceObject (pick values) rest
    else faultAhead .expectedValue (c :: rest)

/-- In words, a natural number of so many bits. -/
def describeUnsigned (bits : Nat) : String := "u" ++ String.ofList (Decimal.ofNat bits)

/-- Bounds an integer. -/
def boundInt (bits : Nat) (n : Int) : Except Mismatch (Fin (Nat.pow 2 bits)) :=
  if h : 0 ≤ n ∧ n.toNat < Nat.pow 2 bits then .ok ⟨n.toNat, h.2⟩
  else .error (.wrongValue (.int n) (describeUnsigned bits))

/-- Reads a natural number of so many bits. -/
def readUnsigned (bits : Nat) (b : Bytes) : Except Fault (Fin (Nat.pow 2 bits) × Bytes) := do
  match ← readHead b with
  | .scalar (.number (.int n)) rest =>
    match boundInt bits n.val with
    | .ok k => .ok (k, rest)
    | .error m => fault (.shape m) rest
  | head => wrongType head (describeUnsigned bits)

/-- Reads a text and understands it. -/
def readParsed {α : Type} (expected : String) (read : String → Except String α) (b : Bytes) :
    Except Fault (α × Bytes) := do
  match ← readHead b with
  | .scalar (.text s) rest =>
    match read s with
    | .ok a => .ok (a, rest)
    | .error reason => fault (.shape (.refused reason)) rest
  | head => wrongType head expected

end Format

mutual

/-- Reads a value of a format; so many levels may still be opened. -/
def Format.readJson : {α : Type} → Format α → Nat → Bytes → Except Fault (α × Bytes)
  | _, .text, _, b => do
    match ← readHead b with
    | .scalar (.text s) rest => .ok (s, rest)
    | head => wrongType head "a string"
  | _, .bool, _, b => do
    match ← readHead b with
    | .scalar (.bool v) rest => .ok (v, rest)
    | head => wrongType head "a boolean"
  | _, .unsigned bits, _, b => Format.readUnsigned bits b
  | _, .parsed expected read _, _, b => Format.readParsed expected read b
  | _, .choice values _ _, levels, b => Format.readChoice values levels b
  | _, .optional format, levels, b =>
    match skipBlank b with
    | 0x6E :: rest => do
      let rest ← readWord [0x75, 0x6C, 0x6C] rest
      .ok (none, rest)
    | _ => do
      let (a, rest) ← format.readJson levels b
      .ok (some a, rest)
  | _, .list item, levels, b => do
    match ← readHead b with
    | .list here =>
      match levels with
      | 0 => faultAhead .tooDeep here
      | l + 1 => Json.readItems (item.readJson l) here [] (here.drop 1)
    | head => wrongType head "a sequence"
  | _, .any, levels, b => readAny levels b
  | _, .record name members build _ _, levels, b => do
    match ← readHead b with
    | .list here =>
      if members.isOpen then wrongType (.list here) ("struct " ++ name)
      else match levels with
        | 0 => faultAhead .tooDeep here
        | l + 1 =>
          let (s, rest) ←
            members.readItems (Members.describe name members.count) l 0 (here.drop 1)
          let rest ← endList rest
          .ok (build s, rest)
    | .object here =>
      match levels with
      | 0 => faultAhead .tooDeep here
      | l + 1 =>
        let value (key : String) (state : members.State) (b : Bytes) :
            Except Fault (members.State × Bytes) :=
          (members.offer key state).read key state l b
        let (state, rest) ← Json.readMembers value here true members.start (here.drop 1)
        match members.finish state with
        | .ok s => .ok (build s, rest)
        | .error m => fault (.shape m) rest
    | head => wrongType head ("struct " ++ name)
  | _, .map format make _ _, levels, b => do
    let (a, rest) ← format.readJson levels b
    .ok (make a, rest)

/-- What a record does with a key in some state. -/
def Members.offer : {σ : Type} → (m : Members σ) → String → m.State → Offer m.State
  | _, .nil, _, _ => .unknown
  | _, .cons key format _ _ rest, k, s =>
    if k = key then
      match s.1 with
      | some _ => .repeated
      | none => .take fun levels b => do
        let (a, after) ← format.readJson levels b
        .ok ((some a, s.2), after)
    else (rest.offer k s.2).lift fun t => (s.1, t)
  | _, .others, k, s => .take fun levels b => do
    let (v, after) ← readAny levels b
    .ok (insertMember k v s, after)

/-- Reads the members of a record in order; members at the end that have a fallback may be left
out. -/
def Members.readItems : {σ : Type} → Members σ → String → Nat → Nat → Bytes →
    Except Fault (σ × Bytes)
  | _, .nil, _, _, _, b => .ok ((), b)
  | _, .cons _ format fallback _ rest, description, levels, index, b => do
    match ← nextItem (index = 0) b with
    | .more after =>
      let (a, after) ← format.readJson levels after
      let (s, after) ← rest.readItems description levels (index + 1) after
      .ok ((a, s), after)
    | .close here =>
      match fallback with
      | some a =>
        let (s, after) ← rest.readItems description levels (index + 1) here
        .ok ((a, s), after)
      | none => fault (.shape (.wrongLength index description)) (stopOfEndList here)
  | _, .others, _, _, _, b => .ok (([] : Json.Members), b)

end

/-- Reads a whole document. -/
def Format.readDocument {α : Type} (format : Format α) (b : Bytes) : Except Fault α := do
  finish (← format.readJson maxLevels b)

/-- Reads a whole document and says where it is wrong. -/
def Format.ofJson {α : Type} (format : Format α) (b : Bytes) : Except Json.Error α :=
  match format.readDocument b with
  | .ok a => .ok a
  | .error f => .error (f.locate b)

end HealthService
