import HealthService.Text.Utf8

/-!
# Base64

Three bytes are written as four characters of an alphabet of sixty-four. One or two bytes that are
left over are written as two or three characters, filled up with `=`; the bits that mean nothing are
zero.

`decode` reads back what `encode` writes and refuses everything else. `decodeLoose` is for texts that
people have handled: blanks may stand anywhere, what fills up the last group may be missing, and the
bits that mean nothing may be anything.
-/

namespace HealthService.Base64

/-- The value of a character of the alphabet. -/
def value? (b : UInt8) : Option Nat :=
  let n := b.toNat
  if 65 ≤ n ∧ n ≤ 90 then some (n - 65)
  else if 97 ≤ n ∧ n ≤ 122 then some (n - 97 + 26)
  else if 48 ≤ n ∧ n ≤ 57 then some (n - 48 + 52)
  else if n = 43 then some 62
  else if n = 47 then some 63
  else none

/-- The character of a value. -/
def char (v : Nat) : UInt8 :=
  UInt8.ofNat <|
    if v < 26 then v + 65
    else if v < 52 then v - 26 + 97
    else if v < 62 then v - 52 + 48
    else if v = 62 then 43
    else 47

/-- The sign that fills up. -/
def pad : UInt8 := 61

/-- The text of some bytes. -/
def encode : Bytes → Bytes
  | [] => []
  | [a] => [char (a.toNat / 4), char (a.toNat % 4 * 16), pad, pad]
  | [a, b] =>
    [char (a.toNat / 4), char (a.toNat % 4 * 16 + b.toNat / 16), char (b.toNat % 16 * 4), pad]
  | a :: b :: c :: rest =>
    char (a.toNat / 4) :: char (a.toNat % 4 * 16 + b.toNat / 16)
      :: char (b.toNat % 16 * 4 + c.toNat / 64) :: char (c.toNat % 64) :: encode rest

/-- The three bytes of four values. -/
def triple (w x y z : Nat) : Bytes :=
  [UInt8.ofNat (w * 4 + x / 16), UInt8.ofNat (x % 16 * 16 + y / 4), UInt8.ofNat (y % 4 * 64 + z)]

/-- The bytes of the last four characters, which may be filled up. -/
def decodeLast (a b c d : UInt8) : Option Bytes := do
  let w ← value? a
  let x ← value? b
  if c = pad ∧ d = pad then
    if x % 16 = 0 then some ((triple w x 0 0).take 1) else none
  else
    let y ← value? c
    if d = pad then
      if y % 4 = 0 then some ((triple w x y 0).take 2) else none
    else
      let z ← value? d
      some (triple w x y z)

/-- The bytes that a text stands for. -/
def decode : Bytes → Option Bytes
  | [] => some []
  | [a, b, c, d] => decodeLast a b c d
  | a :: b :: c :: d :: rest => do
    let w ← value? a
    let x ← value? b
    let y ← value? c
    let z ← value? d
    let bytes ← decode rest
    some (triple w x y z ++ bytes)
  | _ => none

/-! ## Loosely written texts -/

/-- Blanks that may stand anywhere. -/
def isBlank (b : UInt8) : Bool := b = 9 || b = 10 || b = 13 || b = 32

/-- A group of characters without what fills it up. -/
def unfill : Bytes → Bytes
  | [a, b, c, d] => if d = pad then if c = pad then [a, b] else [a, b, c] else [a, b, c, d]
  | group => group

/-- The bytes of a group of characters that is not filled up. -/
def decodeGroup : Bytes → Option Bytes
  | [] => some []
  | [a, b] => do
    let w ← value? a
    let x ← value? b
    some ((triple w x 0 0).take 1)
  | [a, b, c] => do
    let w ← value? a
    let x ← value? b
    let y ← value? c
    some ((triple w x y 0).take 2)
  | [a, b, c, d] => do
    let w ← value? a
    let x ← value? b
    let y ← value? c
    let z ← value? d
    some (triple w x y z)
  | _ => none

/-- The bytes of a text without blanks. -/
def decodeGroups : Bytes → Option Bytes
  | a :: b :: c :: d :: e :: rest => do
    let bytes ← decodeGroup [a, b, c, d]
    let more ← decodeGroups (e :: rest)
    some (bytes ++ more)
  | group => decodeGroup (unfill group)

/-- The bytes that a loosely written text stands for. -/
def decodeLoose (text : Bytes) : Option Bytes := decodeGroups (text.filter fun b => !isBlank b)

end HealthService.Base64
