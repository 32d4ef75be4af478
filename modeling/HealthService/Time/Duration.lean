import HealthService.Decimal.Shortest

/-!
# Durations

Time is counted in whole nanoseconds, so no sum or comparison of times is ever rounded.

`Duration.describe` writes a duration in the largest of the units s, ms, µs and ns in which it is at
least one, as an exact decimal without trailing zeros, so that nothing of it is lost.
-/

namespace HealthService

/-- A span of time in nanoseconds. -/
abbrev Duration := Nat

namespace Duration

/-- Nanoseconds in a millisecond. -/
def perMilli : Nat := 1000000

/-- Nanoseconds in a second. -/
def perSecond : Nat := 1000000000

/-- A whole number of milliseconds. -/
def ofMillis (n : Nat) : Duration := n * perMilli

/-- A whole number of seconds. -/
def ofSeconds (n : Nat) : Duration := n * perSecond

/-- A unit of time: its name, its length, and how many digits a fraction of it has. -/
structure TimeUnit where
  name : List Char
  nanos : Nat
  places : Nat
  deriving DecidableEq, Repr

/-- The units from the largest to the smallest. -/
def units : List TimeUnit :=
  [⟨['s'], perSecond, 9⟩, ⟨['m', 's'], perMilli, 6⟩, ⟨['µ', 's'], 1000, 3⟩, ⟨['n', 's'], 1, 0⟩]

/-- The unit in which a duration is written. -/
def unitOf (d : Duration) : TimeUnit :=
  if d ≥ perSecond then ⟨['s'], perSecond, 9⟩
  else if d ≥ perMilli then ⟨['m', 's'], perMilli, 6⟩
  else if d ≥ 1000 then ⟨['µ', 's'], 1000, 3⟩
  else ⟨['n', 's'], 1, 0⟩

/-- The last `places` digits of `n`, most significant first. -/
def lastDigits : Nat → Nat → List Char
  | 0, _ => []
  | places + 1, n => lastDigits places (n / 10) ++ [Nat.digitChar (n % 10)]

/-- Digits without the zeros at their end. -/
def dropZeros (ds : List Char) : List Char := (ds.reverse.dropWhile (· == '0')).reverse

/-- The point and the digits of a fraction; nothing for a zero fraction. -/
def fraction (places n : Nat) : List Char :=
  match dropZeros (lastDigits places n) with
  | [] => []
  | ds => '.' :: ds

/-- A duration in words. -/
def print (d : Duration) : List Char :=
  let u := unitOf d
  Decimal.ofNat (d / u.nanos) ++ fraction u.places (d % u.nanos) ++ u.name

/-- A duration in words, as a string. -/
def describe (d : Duration) : String := String.ofList (print d)

/-- An optional duration in words. -/
def describeOption : Option Duration → String
  | none => "None"
  | some d => "Some(" ++ describe d ++ ")"

end Duration

end HealthService
