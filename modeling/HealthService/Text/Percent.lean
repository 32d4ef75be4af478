import HealthService.Json.Literal

/-!
# Percent escapes

`decode` replaces each `%` with two hexadecimal digits by the byte they name and leaves every other
byte, a `%` without two digits included.
-/

namespace HealthService.Percent

/-- `decode` with what was read so far, newest first. -/
def decodeAux : Bytes → Bytes → Bytes
  | acc, [] => acc.reverse
  | acc, [a] => (a :: acc).reverse
  | acc, [a, b] => (b :: a :: acc).reverse
  | acc, a :: b :: c :: rest =>
    if a = 0x25 then
      match Json.hexValue? b, Json.hexValue? c with
      | some x, some y => decodeAux (UInt8.ofNat (x * 16 + y) :: acc) rest
      | _, _ => decodeAux (a :: acc) (b :: c :: rest)
    else decodeAux (a :: acc) (b :: c :: rest)

/-- The bytes with their escapes resolved. -/
def decode (b : Bytes) : Bytes := decodeAux [] b

/-- An upper-case hexadecimal digit. -/
def hexDigit (n : Nat) : Char := if n < 10 then Char.ofNat (0x30 + n) else Char.ofNat (0x41 + n - 10)

/-- A byte as an escape. -/
def escape (b : UInt8) : List Char := ['%', hexDigit (b.toNat / 16), hexDigit (b.toNat % 16)]

/-- Escapes the bytes of the characters in a set. -/
def encode (inSet : Char → Bool) (s : List Char) : List Char :=
  s.flatMap fun c => if inSet c then (Utf8.encodeChar c).flatMap escape else [c]

end HealthService.Percent
