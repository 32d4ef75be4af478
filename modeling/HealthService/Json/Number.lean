import HealthService.Json.Literal

/-!
# Reading numbers

An integer that fits into sixty-four bits is kept as it is. Every other number becomes a double, and
not always the nearest one: as many leading digits as fit into an unsigned word form a significand,
the digits after them are dropped, and the significand, as a double, is multiplied or divided by one
power of ten. Large negative powers are taken in several steps.
-/

namespace HealthService.Json

/-- Numbers as they are read. -/
inductive Numeral where
  | int (n : WordInt)
  | float (bits : UInt64)
  deriving DecidableEq

/-- The value that a number stands for. -/
def Numeral.toJson : Numeral → Json
  | .int n => .int n
  | .float bits => .float bits

/-- A number in the words of a message. -/
def Numeral.found : Numeral → Found
  | .int n => .int n.val
  | .float bits => .float bits

/-- Whether a byte is a decimal digit. -/
def isDigit (b : UInt8) : Bool := 0x30 ≤ b.toNat && b.toNat ≤ 0x39

/-- The value of a decimal digit. -/
def digitValue (b : UInt8) : Nat := b.toNat - 0x30

/-- Takes digits into a significand as long as it stays below `2 ^ 64`, counting them. -/
def absorb : Nat → Nat → Bytes → Nat × Nat
  | significand, taken, [] => (significand, taken)
  | significand, taken, d :: ds =>
    let next := significand * 10 + digitValue d
    if next < 0x10000000000000000 then absorb next (taken + 1) ds else (significand, taken)

/-- The double nearest to a power of ten. -/
def powerOfTen (n : Nat) : Float := Float.ofScientific 1 false n

/-- Multiplies or divides a double by a power of ten; none if it grows beyond all doubles. The first
number bounds the steps. -/
def scale : Nat → Float → Int → Option Float
  | 0, x, _ => some x
  | n + 1, x, e =>
    if e.natAbs ≤ 308 then
      if e ≥ 0 then
        let y := x * powerOfTen e.natAbs
        if y.isInf then none else some y
      else some (x / powerOfTen e.natAbs)
    else if x == 0.0 then some x
    else if e ≥ 0 then none
    else scale n (x / powerOfTen 308) (e + 308)

/-- The double for a sign, a significand and a power of ten; the fault, if the double is too large,
is noticed with `rest` left. -/
def toDouble (negative : Bool) (significand : Nat) (e : Int) (rest : Bytes) : Except Fault (Numeral × Bytes) :=
  match scale 8 (UInt64.ofNat significand).toFloat e with
  | some x => .ok (.float (if negative then -x else x).toBits, rest)
  | none => fault .numberOutOfRange rest

/-- What the digits of an exponent say, with what follows them. -/
inductive Exponent where
  | value (n : Nat) (rest : Bytes)
  /-- Beyond thirty-one bits; `rest` follows the digit that went too far. -/
  | huge (rest : Bytes)

/-- Reads the digits of an exponent. -/
def readExponentDigits : Nat → Bytes → Exponent
  | n, [] => .value n []
  | n, b :: rest =>
    if isDigit b then
      let next := n * 10 + digitValue b
      if next < 0x80000000 then readExponentDigits next rest else .huge rest
    else .value n (b :: rest)

/-- The rest of a number after its `e`. -/
def readExponent (negative : Bool) (significand : Nat) (start : Int) (b : Bytes) :
    Except Fault (Numeral × Bytes) :=
  let (minus, b) := match b with
    | 0x2B :: r => (false, r)
    | 0x2D :: r => (true, r)
    | _ => (false, b)
  match b with
  | [] => fault .endInValue []
  | d :: rest =>
    if isDigit d then
      match readExponentDigits (digitValue d) rest with
      | .value n rest =>
        toDouble negative significand (if minus then start - n else start + n) rest
      | .huge rest =>
        if significand ≠ 0 ∧ !minus then fault .numberOutOfRange rest
        else .ok (.float (if negative then (-0.0 : Float) else 0.0).toBits,
          rest.dropWhile isDigit)
    else fault .invalidNumber rest

/-- An exponent, if one follows, and the double. -/
def finishDouble (negative : Bool) (significand : Nat) (e : Int) (b : Bytes) : Except Fault (Numeral × Bytes) :=
  match b with
  | c :: rest =>
    if c = 0x65 ∨ c = 0x45 then readExponent negative significand e rest
    else toDouble negative significand e b
  | [] => toDouble negative significand e []

/-- The rest of a number after its point. -/
def readFraction (negative : Bool) (significand : Nat) (e : Int) (b : Bytes) : Except Fault (Numeral × Bytes) :=
  let digits := b.takeWhile isDigit
  let rest := b.dropWhile isDigit
  if digits.isEmpty then
    match rest with
    | [] => fault .endInValue []
    | _ => faultAhead .invalidNumber rest
  else
    let (significand, taken) := absorb significand 0 digits
    finishDouble negative significand (e - taken) rest

/-- The rest of a number after the digits before its point, of which `dropped` are not in the
significand. -/
def finishNumber (negative : Bool) (significand dropped : Nat) (b : Bytes) : Except Fault (Numeral × Bytes) :=
  let double : Except Fault (Numeral × Bytes) := finishDouble negative significand dropped b
  match b with
  | 0x2E :: rest => readFraction negative significand dropped rest
  | c :: _ => if c = 0x65 ∨ c = 0x45 ∨ dropped ≠ 0 then double else whole
  | [] => if dropped ≠ 0 then double else whole
where
  /-- A number that is all integer: a double only for minus zero and below the words. -/
  whole : Except Fault (Numeral × Bytes) :=
    if h : significand < 0x10000000000000000 then
      if negative then
        if h' : 0 < significand ∧ significand ≤ 0x8000000000000000 then
          .ok (.int ⟨-significand, by omega, by omega⟩, b)
        else .ok (.float (-(UInt64.ofNat significand).toFloat).toBits, b)
      else .ok (.int ⟨significand, by omega, by omega⟩, b)
    else fault .numberOutOfRange b

/-- A number after its sign. A zero at the head stands alone. -/
def readUnsigned (negative : Bool) : Bytes → Except Fault (Numeral × Bytes)
  | [] => fault .endInValue []
  | b :: rest =>
    if b = 0x30 then
      match rest with
      | c :: _ => if isDigit c then faultAhead .invalidNumber rest
        else finishNumber negative 0 0 rest
      | [] => finishNumber negative 0 0 []
    else if isDigit b then
      let digits := rest.takeWhile isDigit
      let (significand, taken) := absorb (digitValue b) 0 digits
      finishNumber negative significand (digits.length - taken) (rest.dropWhile isDigit)
    else fault .invalidNumber rest

/-- A number whose first byte is a digit or a minus sign. -/
def readNumber : Bytes → Except Fault (Numeral × Bytes)
  | 0x2D :: rest => readUnsigned true rest
  | b => readUnsigned false b

end HealthService.Json
