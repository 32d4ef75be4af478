/-!
# Shortest decimals

A binary floating-point number stands for every real that rounds to it. Among the decimals in that
interval, `Shortest.ofPositive` finds one with the fewest digits, and of those the nearest to the
number itself. All arithmetic is on natural numbers, so nothing is lost on the way.

`Shortest.ofBits` decodes the sixty-four bits of a double and applies it.
-/

namespace HealthService

/-- A non-negative decimal `digits · 10 ^ exponent`. -/
structure Decimal where
  digits : Nat
  exponent : Int
  deriving DecidableEq, Repr

namespace Decimal

/-- The digits of a natural number, most significant first. -/
def ofNat (n : Nat) : List Char := Nat.toDigits 10 n

/-- The digits of an integer, after a minus sign if it is negative. -/
def ofInt : Int → List Char
  | .ofNat n => ofNat n
  | .negSucc n => '-' :: ofNat (n + 1)

/-- Leaves no zero at the end of the digits; the number bounds the zeros to drop. -/
def trimAux : Nat → Decimal → Decimal
  | 0, d => d
  | n + 1, d =>
    if d.digits % 10 = 0 ∧ d.digits ≠ 0 then trimAux n ⟨d.digits / 10, d.exponent + 1⟩ else d

/-- The same value without zeros at the end of the digits. -/
def trim (d : Decimal) : Decimal := trimAux 20 d

/-- Where the point stands, counted from the first digit: the value is `0.d₁d₂… · 10 ^ point`. -/
def point (d : Decimal) : Int := (ofNat d.digits).length + d.exponent

end Decimal

namespace Shortest

/-- A positive binary number `mantissa · 2 ^ exponent`. It is `narrow` when the next number below
it is only half as far away as the next one above. -/
structure Binary where
  mantissa : Nat
  exponent : Int
  narrow : Bool
  deriving DecidableEq, Repr

/-- The ends of the rounding interval and the value itself, as numerators over one denominator. -/
structure Interval where
  low : Nat
  value : Nat
  high : Nat
  denominator : Nat
  closed : Bool
  deriving DecidableEq, Repr

/-- The reals that round to a binary number: half a step to each side, the ends included when the
mantissa is even. -/
def Binary.interval (b : Binary) : Interval :=
  let up := Nat.pow 2 (b.exponent - 2).toNat
  let down := Nat.pow 2 (2 - b.exponent).toNat
  { low := (4 * b.mantissa - if b.narrow then 1 else 2) * up
    value := 4 * b.mantissa * up
    high := (4 * b.mantissa + 2) * up
    denominator := down
    closed := b.mantissa % 2 = 0 }

/-- Whether the point `n · 10 ^ k` lies in the interval. -/
def Interval.holds (i : Interval) (n : Nat) (k : Int) : Bool :=
  let x := n * Nat.pow 10 k.toNat * i.denominator
  let s := Nat.pow 10 (-k).toNat
  if i.closed then i.low * s ≤ x && x ≤ i.high * s
  else i.low * s < x && x < i.high * s

/-- The best point of the grid of step `10 ^ k`: one of the two neighbours of the value, if it lies
in the interval, and the nearer one if both do; of two equally near the even one. -/
def Interval.onGrid (i : Interval) (k : Int) : Option Decimal :=
  let num := i.value * Nat.pow 10 (-k).toNat
  let den := i.denominator * Nat.pow 10 k.toNat
  let below := num / den
  let rest := num % den
  let lower := i.holds below k
  let upper := i.holds (below + 1) k
  if lower && upper then
    let up := 2 * rest > den || (2 * rest = den && below % 2 = 1)
    some ⟨if up then below + 1 else below, k⟩
  else if lower then some ⟨below, k⟩
  else if upper then some ⟨below + 1, k⟩
  else none

/-- Tries grids from coarse to fine. -/
def Interval.search (i : Interval) : Nat → Int → Option Decimal
  | 0, _ => none
  | n + 1, k =>
    match i.onGrid k with
    | some d => if d.digits = 0 then i.search n (k - 1) else some d
    | none => i.search n (k - 1)

/-- The number of digits before the point of a value of at least one, else zero or less. -/
def Interval.magnitude (i : Interval) : Int :=
  if i.value ≥ i.denominator then (Decimal.ofNat (i.value / i.denominator)).length
  else 1 - (Decimal.ofNat (i.denominator / i.value)).length

/-- The shortest decimal that rounds to a positive binary number. -/
def ofPositive (b : Binary) : Decimal :=
  let i := b.interval
  match i.search 20 i.magnitude with
  | some d => d.trim
  | none => ⟨0, 0⟩

/-- The parts of a double. -/
inductive Parts where
  | zero (negative : Bool)
  | finite (negative : Bool) (value : Binary)
  | infinite (negative : Bool)
  | notANumber
  deriving DecidableEq, Repr

/-- Takes a double's sign, exponent and mantissa apart. -/
def partsOfBits (bits : UInt64) : Parts :=
  let n := bits.toNat
  let negative : Bool := decide (n / 0x8000000000000000 = 1)
  let e : Nat := n / 0x10000000000000 % 0x800
  let m : Nat := n % 0x10000000000000
  if e = 0 then
    if m = 0 then .zero negative else .finite negative ⟨m, -1074, false⟩
  else if e = 2047 then
    if m = 0 then .infinite negative else .notANumber
  else .finite negative ⟨0x10000000000000 + m, Int.ofNat e - 1075, decide (m = 0 ∧ 1 < e)⟩

end Shortest

/-! ## Two notations -/

namespace Decimal

/-- `n` zeros. -/
def zeros (n : Nat) : List Char := List.replicate n '0'

/-- Without an exponent; `.0` is not written after a whole number. -/
def plain (d : Decimal) : List Char :=
  let ds := ofNat d.digits
  let p := d.point
  if d.exponent ≥ 0 then ds ++ zeros d.exponent.toNat
  else if p ≤ 0 then '0' :: '.' :: (zeros (-p).toNat ++ ds)
  else ds.take p.toNat ++ '.' :: ds.drop p.toNat

/-- Positional for values from `0.00001` up to below `10 ^ 16`, with `.0` after a whole number;
otherwise one digit, the further digits after a point, and a signed exponent. -/
def mixed (d : Decimal) : List Char :=
  let ds := ofNat d.digits
  let p := d.point
  if -5 < p ∧ p ≤ 16 then
    if d.exponent ≥ 0 then d.plain ++ ['.', '0'] else d.plain
  else
    let e := p - 1
    let sign := if e < 0 then '-' else '+'
    let fraction := if ds.length ≤ 1 then [] else '.' :: ds.drop 1
    ds.take 1 ++ fraction ++ 'e' :: sign :: ofNat e.natAbs

end Decimal

/-- How texts write a double. -/
structure DoubleStyle where
  finite : Decimal → List Char
  zero : List Char
  infinite : List Char
  notANumber : List Char

/-- The text of a double in a style. -/
def DoubleStyle.write (style : DoubleStyle) (bits : UInt64) : List Char :=
  let signed (negative : Bool) (t : List Char) := if negative then '-' :: t else t
  match Shortest.partsOfBits bits with
  | .zero negative => signed negative style.zero
  | .finite negative b => signed negative (style.finite (Shortest.ofPositive b))
  | .infinite negative => signed negative style.infinite
  | .notANumber => style.notANumber

end HealthService
