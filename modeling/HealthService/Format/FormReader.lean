import HealthService.Form.Pairs
import HealthService.Format.JsonReader

/-!
# Reading a format from form data

A record is read from the pairs of form data. A value is one text: it is a number or a truth value
if its letters say so, and an optional value that occurs is always something.
-/

namespace HealthService

namespace Form

/-- Why the letters of a number are none. -/
inductive NumeralFault where
  | empty
  | invalidDigit
  | tooLarge
  deriving DecidableEq, Repr

/-- A fault of a number in words. -/
def NumeralFault.message : NumeralFault → String
  | .empty => "cannot parse integer from empty string"
  | .invalidDigit => "invalid digit found in string"
  | .tooLarge => "number too large to fit in target type"

/-- Reads digits below a limit; the first letter that is wrong or goes too far decides. -/
def readDigits (limit : Nat) : Nat → List Char → Except NumeralFault Nat
  | n, [] => .ok n
  | n, c :: cs =>
    if '0' ≤ c ∧ c ≤ '9' then
      let next := n * 10 + (c.toNat - 48)
      if next < limit then readDigits limit next cs else .error .tooLarge
    else .error .invalidDigit

/-- Reads a natural number below a limit, perhaps after a plus sign. -/
def readNat (limit : Nat) (s : List Char) : Except NumeralFault Nat :=
  match s with
  | [] => .error .empty
  | '+' :: c :: cs => readDigits limit 0 (c :: cs)
  | cs => readDigits limit 0 cs

end Form

/-- Reads a value of a format from one text. -/
def Format.readPart : {α : Type} → Format α → String → Except Mismatch α
  | _, .text, s => .ok s
  | _, .bool, s =>
    if s = "true" then .ok true
    else if s = "false" then .ok false
    else .error (.refused "provided string was not `true` or `false`")
  | _, .unsigned bits, s =>
    match Form.readNat (Nat.pow 2 bits) s.toList with
    | .ok n => boundInt bits n
    | .error e => .error (.refused e.message)
  | _, .parsed _ read _, s =>
    match read s with
    | .ok a => .ok a
    | .error reason => .error (.refused reason)
  | _, .choice values _ _, s =>
    match values.lookup s with
    | some a => .ok a
    | none => .error (.unknownVariant s (values.map Prod.fst))
  | _, .optional format, s => do .ok (some (← format.readPart s))
  | _, .list _, s => .error (.wrongType (.text s) "a sequence")
  | _, .any, s => .ok (.text s)
  | _, .record name _ _ _ _, s => .error (.wrongType (.text s) ("struct " ++ name))
  | _, .map format make _ _, s => do .ok (make (← format.readPart s))

/-- The state after a pair. -/
def Members.take : {σ : Type} → (m : Members σ) → String → String → m.State →
    Except Mismatch m.State
  | _, .nil, _, _, s => .ok s
  | _, .cons key format _ _ rest, k, v, s =>
    if k = key then
      match s.1 with
      | some _ => .error (.repeatedMember key)
      | none => do
        let a ← format.readPart v
        .ok (some a, s.2)
    else do
      let t ← rest.take k v s.2
      .ok (s.1, t)
  | _, .others, k, v, s => .ok (Json.insertMember k (.text v) s)

/-- The state after some pairs. -/
def Members.takeAll {σ : Type} (m : Members σ) : List (String × String) → m.State →
    Except Mismatch m.State
  | [], s => .ok s
  | (k, v) :: rest, s => do m.takeAll rest (← m.take k v s)

/-- Reads a value of a format from pairs. -/
def Format.ofPairs : {α : Type} → Format α → List (String × String) → Except Mismatch α
  | _, .record _ members build _ _, ps => do
    let s ← members.takeAll ps members.start
    .ok (build (← members.finish s))
  | _, .map format make _ _, ps => do .ok (make (← format.ofPairs ps))
  | _, _, _ => .error (.wrongType .object "a form")

end HealthService
