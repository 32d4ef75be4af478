import HealthService.Json.Fault

/-!
# Reading string literals

`readText` reads the rest of a string literal after its opening quote. The bytes between the quotes
are collected with their escapes resolved, and only at the closing quote are they taken as UTF-8.
-/

namespace HealthService.Json

/-- A fault noticed with `rest` left to read. -/
def fault {α : Type} (cause : Cause) (rest : Bytes) : Except Fault α := .error ⟨cause, rest⟩

/-- A fault that blames the next byte: its place is the one after it. -/
def faultAhead {α : Type} (cause : Cause) (rest : Bytes) : Except Fault α :=
  .error ⟨cause, rest.drop 1⟩

/-- The value of a hexadecimal digit of either case. -/
def hexValue? (b : UInt8) : Option Nat :=
  let n := b.toNat
  if 0x30 ≤ n ∧ n ≤ 0x39 then some (n - 0x30)
  else if 0x61 ≤ n ∧ n ≤ 0x66 then some (n - 0x61 + 10)
  else if 0x41 ≤ n ∧ n ≤ 0x46 then some (n - 0x41 + 10)
  else none

/-- The four digits after `\u`. -/
def readHex : Bytes → Except Fault (Nat × Bytes)
  | a :: b :: c :: d :: rest =>
    match hexValue? a, hexValue? b, hexValue? c, hexValue? d with
    | some a, some b, some c, some d => .ok (((a * 16 + b) * 16 + c) * 16 + d, rest)
    | _, _, _, _ => fault .invalidEscape rest
  | _ => fault .endInString []

/-- Whether a code unit opens a surrogate pair. -/
def isHighSurrogate (n : Nat) : Bool := 0xD800 ≤ n && n ≤ 0xDBFF

/-- Whether a code unit closes a surrogate pair. -/
def isLowSurrogate (n : Nat) : Bool := 0xDC00 ≤ n && n ≤ 0xDFFF

/-- The second half of a surrogate pair whose first half was `high`. -/
def readLowSurrogate (high : Nat) : Bytes → Except Fault (Char × Bytes)
  | [] => fault .endInString []
  | b :: rest =>
    if b ≠ 0x5C then fault .endOfHexEscape rest
    else match rest with
      | [] => fault .endInString []
      | u :: rest =>
        if u ≠ 0x75 then fault .endOfHexEscape rest
        else do
          let (low, rest) ← readHex rest
          if isLowSurrogate low then
            .ok (Char.ofNat (0x10000 + (high - 0xD800) * 0x400 + (low - 0xDC00)), rest)
          else fault .loneSurrogate rest

/-- The character that the digits after `\u` stand for. -/
def readUnicodeEscape (b : Bytes) : Except Fault (Char × Bytes) := do
  let (n, rest) ← readHex b
  if isLowSurrogate n then fault .loneSurrogate rest
  else if isHighSurrogate n then readLowSurrogate n rest
  else .ok (Char.ofNat n, rest)

/-- The character of an escape, read after its backslash. -/
def readEscape : Bytes → Except Fault (Char × Bytes)
  | [] => fault .endInString []
  | b :: rest =>
    if b = 0x22 then .ok ('"', rest)
    else if b = 0x5C then .ok ('\\', rest)
    else if b = 0x2F then .ok ('/', rest)
    else if b = 0x62 then .ok ('\x08', rest)
    else if b = 0x66 then .ok ('\x0c', rest)
    else if b = 0x6E then .ok ('\n', rest)
    else if b = 0x72 then .ok ('\r', rest)
    else if b = 0x74 then .ok ('\t', rest)
    else if b = 0x75 then readUnicodeEscape rest
    else fault .invalidEscape rest

/-- Collects the bytes up to the closing quote, newest first; the first list bounds the steps. -/
def collectText : Bytes → Bytes → Bytes → Except Fault (Bytes × Bytes)
  | _, _, [] => fault .endInString []
  | [], _, _ :: _ => fault .endInString []
  | _ :: bound, acc, b :: rest =>
    if b = 0x22 then .ok (acc.reverse, rest)
    else if b = 0x5C then
      match readEscape rest with
      | .ok (c, rest) => collectText bound ((Utf8.encodeChar c).reverse ++ acc) rest
      | .error f => .error f
    else if b.toNat < 0x20 then fault .controlCharacter rest
    else collectText bound (b :: acc) rest

/-- The text of a literal whose opening quote has been read. Ill-formed bytes are blamed where they
stand, after the whole literal has been read. -/
def readText (b : Bytes) : Except Fault (String × Bytes) := do
  let (bytes, rest) ← collectText b [] b
  match Utf8.decode? bytes with
  | some s => .ok (String.ofList s, rest)
  | none => fault .invalidCodePoint (b.drop (Utf8.validLength b + 1))

end HealthService.Json
