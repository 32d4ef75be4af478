import HealthService.Text.Utf8

/-!
# DER

Data of cryptography come as elements of a tag, a length and a content. Lengths up to 127 are one
byte; longer ones are a byte that counts the bytes of the length, then these, as few as possible.

`element?` reads what `encode` writes.
-/

namespace HealthService.Der

/-! ## Tags -/

/-- A whole number. -/
def integer : UInt8 := 0x02

/-- A string of bits. -/
def bitString : UInt8 := 0x03

/-- A string of bytes. -/
def octetString : UInt8 := 0x04

/-- Some elements in a row. -/
def sequence : UInt8 := 0x30

/-- An element that a number within its sequence tells apart. -/
def member (n : UInt8) : UInt8 := 0xA0 + n

/-! ## Numbers -/

/-- The value of some digits to base 256. -/
def value (digits : Bytes) : Nat := digits.foldl (fun n b => n * 256 + b.toNat) 0

/-- The digits of a number to base 256, as few as possible. -/
def digits (n : Nat) : Bytes := if n = 0 then [] else digits (n / 256) ++ [UInt8.ofNat n]
termination_by n

/-! ## Elements -/

/-- How a length is written. -/
def encodeLength (n : Nat) : Bytes :=
  if n < 128 then [UInt8.ofNat n]
  else UInt8.ofNat (128 + (digits n).length) :: digits n

/-- How an element is written. -/
def encode (tag : UInt8) (content : Bytes) : Bytes := tag :: encodeLength content.length ++ content

/-- Reads a length, and what follows it. -/
def length? : Bytes → Option (Nat × Bytes)
  | [] => none
  | b :: rest =>
    if b.toNat < 128 then some (b.toNat, rest)
    else
      let n := value (rest.take (b.toNat - 128))
      let written := encodeLength n
      if b.toNat ≤ 132 ∧ written.isPrefixOf (b :: rest) then
        some (n, (b :: rest).drop written.length)
      else none

/-- Reads an element with a tag: its content, and what follows it. -/
def element? (tag : UInt8) : Bytes → Option (Bytes × Bytes)
  | [] => none
  | t :: rest => do
    let (n, rest) ← length? rest
    if t = tag ∧ n ≤ rest.length then some (rest.take n, rest.drop n) else none

/-- The content of the only element. -/
def only? (tag : UInt8) (b : Bytes) : Option Bytes :=
  match element? tag b with
  | some (content, []) => some content
  | _ => none

/-- Reads a positive number, and what follows it. -/
def positive? (b : Bytes) : Option (Nat × Bytes) := do
  let (content, rest) ← element? integer b
  match content with
  | [] => none
  | 0 :: d :: ds => if 128 ≤ d.toNat then some (value (d :: ds), rest) else none
  | d :: ds => if d ≠ 0 ∧ d.toNat < 128 then some (value (d :: ds), rest) else none

/-- The bits of a string of whole bytes. -/
def wholeBytes? : Bytes → Option Bytes
  | 0 :: bits => some bits
  | _ => none

/-- How a positive number is written. -/
def encodePositive (n : Nat) : Bytes :=
  let ds := digits n
  encode integer (if 128 ≤ (ds.headD 0).toNat then 0 :: ds else ds)

end HealthService.Der
