import HealthService.Decimal.Shortest
import HealthService.Text.Blank

/-!
# Points in time and their text

A `DateTime` is a point in time of the proleptic Gregorian calendar in UTC, to the nanosecond; in a
leap second the nanoseconds go on beyond one second.

`DateTime.print` writes it with as many groups of three fractional digits as it needs.
`DateTime.parse` is more lenient than that: it takes a space for the `T`, blanks around the parts,
any offset from UTC, and more digits of the fraction than count.
-/

namespace HealthService

/-- A point in time: seconds since the beginning of 1970 in UTC, and nanoseconds. -/
structure DateTime where
  seconds : Int
  nanos : Nat
  deriving DecidableEq, Repr

/-- A date of the Gregorian calendar. -/
structure Date where
  year : Int
  month : Nat
  day : Nat
  deriving DecidableEq, Repr

namespace Date

/-- Whether a year has a twenty-ninth of February. -/
def isLeap (year : Int) : Bool := year % 4 = 0 && (year % 100 ≠ 0 || year % 400 = 0)

/-- How many days a month has. -/
def daysInMonth (year : Int) (month : Nat) : Nat :=
  if month = 2 then (if isLeap year then 29 else 28)
  else if month = 4 ∨ month = 6 ∨ month = 9 ∨ month = 11 then 30
  else 31

/-- The years that can be written down. -/
def isYear (year : Int) : Bool := -262143 ≤ year && year ≤ 262142

/-- Whether a date exists. -/
def isValid (d : Date) : Bool :=
  isYear d.year && 1 ≤ d.month && d.month ≤ 12 && 1 ≤ d.day && d.day ≤ daysInMonth d.year d.month

/-- Days since the beginning of 1970. Years are taken to begin in March, so that the leap day comes
last. -/
def toDays (d : Date) : Int :=
  let y := if d.month ≤ 2 then d.year - 1 else d.year
  let era := Int.fdiv y 400
  let yearOfEra := y - era * 400
  let month : Int := if d.month > 2 then d.month - 3 else d.month + 9
  let dayOfYear := (153 * month + 2) / 5 + d.day - 1
  let dayOfEra := yearOfEra * 365 + yearOfEra / 4 - yearOfEra / 100 + dayOfYear
  era * 146097 + dayOfEra - 719468

/-- The date of a day counted from the beginning of 1970. -/
def ofDays (days : Int) : Date :=
  let z := days + 719468
  let era := Int.fdiv z 146097
  let dayOfEra := z - era * 146097
  let yearOfEra := (dayOfEra - dayOfEra / 1460 + dayOfEra / 36524 - dayOfEra / 146096) / 365
  let dayOfYear := dayOfEra - (365 * yearOfEra + yearOfEra / 4 - yearOfEra / 100)
  let month := (5 * dayOfYear + 2) / 153
  let day := dayOfYear - (153 * month + 2) / 5 + 1
  let m := if month < 10 then month + 3 else month - 9
  let year := yearOfEra + era * 400
  ⟨if m ≤ 2 then year + 1 else year, m.toNat, day.toNat⟩

end Date

namespace DateTime

/-! ## Writing -/

/-- The last `width` digits of a number. -/
def padded : Nat → Nat → List Char
  | 0, _ => []
  | width + 1, n => padded width (n / 10) ++ [Nat.digitChar (n % 10)]

/-- A year: four digits, or a sign and at least four. -/
def printYear (year : Int) : List Char :=
  if 0 ≤ year ∧ year ≤ 9999 then padded 4 year.toNat
  else
    let digits := Decimal.ofNat year.natAbs
    (if year < 0 then '-' else '+') :: (List.replicate (4 - digits.length) '0' ++ digits)

/-- A fraction in as many groups of three digits as it needs. -/
def printFraction (nanos : Nat) : List Char :=
  if nanos = 0 then []
  else if nanos % 1000000 = 0 then '.' :: padded 3 (nanos / 1000000)
  else if nanos % 1000 = 0 then '.' :: padded 6 (nanos / 1000)
  else '.' :: padded 9 nanos

/-- A point in time in UTC. -/
def print (t : DateTime) : List Char :=
  let date := Date.ofDays (Int.fdiv t.seconds 86400)
  let second := (Int.fmod t.seconds 86400).toNat
  let leap := t.nanos / 1000000000
  printYear date.year ++ '-' :: padded 2 date.month ++ '-' :: padded 2 date.day
    ++ 'T' :: padded 2 (second / 3600) ++ ':' :: padded 2 (second / 60 % 60)
    ++ ':' :: padded 2 (second % 60 + leap) ++ printFraction (t.nanos % 1000000000) ++ ['Z']

/-! ## Reading -/

/-- Why a text is no point in time. -/
inductive ParseError where
  | outOfRange
  | impossible
  | invalid
  | tooShort
  | tooLong
  deriving DecidableEq, Repr

/-- An error in words. -/
def ParseError.message : ParseError → String
  | .outOfRange => "input is out of range"
  | .impossible => "no possible date and time matching input"
  | .invalid => "input contains invalid characters"
  | .tooShort => "premature end of input"
  | .tooLong => "trailing input"

/-- Without the blanks at the head. -/
def skip (s : List Char) : List Char := s.dropWhile Blank.isUnicode

/-- Whether a character is a decimal digit. -/
def isDigit (c : Char) : Bool := '0' ≤ c && c ≤ '9'

/-- The number that digits stand for. -/
def value (digits : List Char) : Nat := digits.foldl (fun n c => n * 10 + (c.toNat - 48)) 0

/-- Reads a number of at least one and at most `width` digits. -/
def number (width : Nat) (s : List Char) : Except ParseError (Nat × List Char) :=
  match s with
  | [] => .error .tooShort
  | c :: _ =>
    if isDigit c then
      let digits := (s.take width).takeWhile isDigit
      if value digits < 0x8000000000000000 then .ok (value digits, s.drop digits.length)
      else .error .outOfRange
    else .error .invalid

/-- Reads one given character after blanks. -/
def literal (c : Char) (s : List Char) : Except ParseError (List Char) :=
  match skip s with
  | [] => .error .tooShort
  | d :: rest => if d = c then .ok rest else .error .invalid

/-- Reads a number of at most two digits between bounds after blanks. -/
def part (low high : Nat) (s : List Char) : Except ParseError (Nat × List Char) := do
  let (n, rest) ← number 2 (skip s)
  if low ≤ n ∧ n ≤ high then .ok (n, rest) else .error .outOfRange

/-- Reads a year; only after a sign may it have more than four digits. -/
def year (s : List Char) : Except ParseError (Int × List Char) := do
  let s := skip s
  let (y, rest) ← match s with
    | '-' :: r => do
      let (n, rest) ← number s.length r
      .ok (-(n : Int), rest)
    | '+' :: r => do
      let (n, rest) ← number s.length r
      .ok ((n : Int), rest)
    | _ => do
      let (n, rest) ← number 4 s
      .ok ((n : Int), rest)
  if -0x80000000 ≤ y ∧ y < 0x80000000 then .ok (y, rest) else .error .outOfRange

/-- Reads a fraction of a second, if there is one; digits after the ninth do not count. -/
def nanosecond (s : List Char) : Except ParseError (Nat × List Char) :=
  match s with
  | '.' :: r => do
    let (n, rest) ← number 9 r
    .ok (n * Nat.pow 10 (9 - (r.length - rest.length)), rest.dropWhile isDigit)
  | _ => .ok (0, s)

/-- Reads two digits. -/
def pair (s : List Char) : Except ParseError (Nat × Nat × List Char) :=
  match s with
  | a :: b :: rest =>
    if isDigit a ∧ isDigit b then .ok (a.toNat - 48, b.toNat - 48, rest) else .error .invalid
  | [c] => if c.toNat < 0x80 then .error .tooShort else .error .invalid
  | [] => .error .tooShort

/-- Reads hours and minutes of an offset after its sign. -/
def offsetParts (s : List Char) : Except ParseError (Nat × List Char) := do
  let (h₁, h₂, rest) ← pair s
  let rest := rest.dropWhile fun c => c = ':' || Blank.isUnicode c
  let (m₁, m₂, rest) ← pair rest
  if m₁ > 5 then .error .outOfRange
  else .ok ((h₁ * 10 + h₂) * 3600 + (m₁ * 10 + m₂) * 60, rest)

/-- An ASCII letter in lower case. -/
def lower (c : Char) : Char := if 'A' ≤ c ∧ c ≤ 'Z' then Char.ofNat (c.toNat + 32) else c

/-- Reads an offset from UTC in seconds. -/
def offset (s : List Char) : Except ParseError (Int × List Char) :=
  if (s.take 3).map lower = ['u', 't', 'c'] then .ok (0, s.drop 3)
  else match s with
    | [] => .error .tooShort
    | c :: rest =>
      if c = 'Z' ∨ c = 'z' then .ok (0, rest)
      else if c = '+' then do
        let (n, rest) ← offsetParts rest
        .ok (n, rest)
      else if c = '-' ∨ c = '\u2212' then do
        let (n, rest) ← offsetParts rest
        .ok (-(n : Int), rest)
      else .error .invalid

/-- Reads the separator of date and time. -/
def separator (s : List Char) : Except ParseError (List Char) :=
  match s with
  | [] => .error .tooShort
  | c :: rest => if c = 'T' ∨ c = 't' ∨ c = ' ' then .ok rest else .error .invalid

/-- The point in time of a local date and time at an offset from UTC. -/
def ofLocal (date : Date) (hour minute second nanos : Nat) (offset : Int) :
    Except ParseError DateTime :=
  if !date.isValid ∨ offset.natAbs ≥ 86400 then .error .outOfRange
  else
    let leap := if second = 60 then 1 else 0
    let ofDay : Nat := hour * 3600 + minute * 60 + (second - leap)
    let seconds := date.toDays * 86400 + ofDay - offset
    if Date.isYear (Date.ofDays (Int.fdiv seconds 86400)).year then
      .ok ⟨seconds, nanos + leap * 1000000000⟩
    else .error .impossible

/-- Reads a point in time. -/
def parse (s : List Char) : Except ParseError DateTime := do
  let (y, s) ← year s
  let s ← literal '-' s
  let (m, s) ← part 1 12 s
  let s ← literal '-' s
  let (d, s) ← part 1 31 s
  let s ← separator s
  let (hour, s) ← part 0 23 s
  let s ← literal ':' s
  let (minute, s) ← part 0 59 s
  let s ← literal ':' s
  let (second, s) ← part 0 60 s
  let (nanos, s) ← nanosecond s
  let (off, s) ← offset (skip s)
  if skip s ≠ [] then .error .tooLong
  else ofLocal ⟨y, m, d⟩ hour minute second nanos off

end DateTime

end HealthService
