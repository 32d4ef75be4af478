import HealthService.Decimal.Shortest

/-!
# Network addresses

An address of version 4 has four bytes, one of version 6 has eight groups of sixteen bits. In the
text of the latter a run of zero groups may be left out, and the last two groups may be written like
an address of version 4.

`IpAddress.parse?` accepts these texts, without leading zeros in decimal numbers and with nothing
after them; `IpAddress.print` leaves out the first of the longest runs of at least two zero groups.
-/

namespace HealthService

/-- An address of a host. -/
inductive IpAddress where
  | v4 (a b c d : UInt8)
  | v6 (groups : List UInt16) (length_eq : groups.length = 8)
  deriving DecidableEq, Repr

namespace IpAddress

/-! ## Reading -/

/-- The value of a decimal digit. -/
def decimal? (c : Char) : Option Nat :=
  if '0' ≤ c ∧ c ≤ '9' then some (c.toNat - 48) else none

/-- The value of a hexadecimal digit of either case. -/
def hex? (c : Char) : Option Nat :=
  if '0' ≤ c ∧ c ≤ '9' then some (c.toNat - 48)
  else if 'a' ≤ c ∧ c ≤ 'f' then some (c.toNat - 97 + 10)
  else if 'A' ≤ c ∧ c ≤ 'F' then some (c.toNat - 65 + 10)
  else none

/-- The digits at the head of a text, and what follows them. -/
def digits (digit? : Char → Option Nat) : List Char → List Nat × List Char
  | [] => ([], [])
  | c :: cs =>
    match digit? c with
    | some d =>
      let (ds, rest) := digits digit? cs
      (d :: ds, rest)
    | none => ([], c :: cs)

/-- The number that digits stand for. -/
def value (base : Nat) (ds : List Nat) : Nat := ds.foldl (fun n d => n * base + d) 0

/-- A decimal number below 256 without a leading zero. -/
def readByte (s : List Char) : Option (UInt8 × List Char) :=
  let (ds, rest) := digits decimal? s
  if ds = [] ∨ ds.length > 3 ∨ (ds.length > 1 ∧ ds.head? = some 0) ∨ value 10 ds > 255 then none
  else some (UInt8.ofNat (value 10 ds), rest)

/-- A point and a decimal number. -/
def readDotByte : List Char → Option (UInt8 × List Char)
  | '.' :: rest => readByte rest
  | _ => none

/-- Four decimal numbers with points between them. -/
def readV4 (s : List Char) : Option ((UInt8 × UInt8 × UInt8 × UInt8) × List Char) := do
  let (a, s) ← readByte s
  let (b, s) ← readDotByte s
  let (c, s) ← readDotByte s
  let (d, s) ← readDotByte s
  some ((a, b, c, d), s)

/-- One to four hexadecimal digits. -/
def readGroup (s : List Char) : Option (UInt16 × List Char) :=
  let (ds, rest) := digits hex? s
  if ds = [] ∨ ds.length > 4 then none else some (UInt16.ofNat (value 16 ds), rest)

/-- Two bytes as a group. -/
def groupOf (a b : UInt8) : UInt16 := UInt16.ofNat (a.toNat * 256 + b.toNat)

/-- What stands before a group: nothing before the first one, else a colon. -/
def readColon (first : Bool) (s : List Char) : Option (List Char) :=
  if first then some s
  else match s with
    | ':' :: rest => some rest
    | _ => none

/-- As many groups as there are, at most so many; the flag says whether they end like an address of
version 4. -/
def readGroups : Nat → Bool → List Char → List UInt16 × Bool × List Char
  | 0, _, s => ([], false, s)
  | n + 1, first, s =>
    match readColon first s with
    | none => ([], false, s)
    | some r =>
      match (if n = 0 then none else readV4 r) with
      | some ((a, b, c, d), rest) => ([groupOf a b, groupOf c d], true, rest)
      | none =>
        match readGroup r with
        | some (g, rest) =>
          let (gs, last, rest) := readGroups n false rest
          (g :: gs, last, rest)
        | none => ([], false, s)

/-- Eight groups, of which some zeros may be left out. -/
def readV6 (s : List Char) : Option (List UInt16 × List Char) :=
  let (head, last, rest) := readGroups 8 true s
  if head.length = 8 then some (head, rest)
  else if last then none
  else match rest with
    | ':' :: ':' :: rest =>
      let (tail, _, rest) := readGroups (7 - head.length) true rest
      some (head ++ List.replicate (8 - head.length - tail.length) 0 ++ tail, rest)
    | _ => none

/-- The eight groups of a whole text. -/
def parseV6? (s : List Char) : Option IpAddress :=
  match readV6 s with
  | some (groups, []) => if h : groups.length = 8 then some (.v6 groups h) else none
  | _ => none

/-- The address that a text stands for. -/
def parse? (s : List Char) : Option IpAddress :=
  match readV4 s with
  | some ((a, b, c, d), []) => some (.v4 a b c d)
  | _ => parseV6? s

/-! ## Writing -/

/-- A group in hexadecimal without leading zeros. -/
def printGroup (g : UInt16) : List Char := Nat.toDigits 16 g.toNat

/-- Groups with colons between them. -/
def printGroups : List UInt16 → List Char
  | [] => []
  | [g] => printGroup g
  | g :: gs => printGroup g ++ ':' :: printGroups gs

/-- Four bytes with points between them. -/
def printV4 (a b c d : UInt8) : List Char :=
  Decimal.ofNat a.toNat ++ '.' :: Decimal.ofNat b.toNat ++ '.' :: Decimal.ofNat c.toNat
    ++ '.' :: Decimal.ofNat d.toNat

/-- How many zero groups stand at the head. -/
def zerosAtHead (gs : List UInt16) : Nat := (gs.takeWhile (· = 0)).length

/-- The place and length of the first of the longest runs of zero groups, from place `i` on. -/
def longestRun : Nat → List UInt16 → Nat × Nat
  | _, [] => (0, 0)
  | i, g :: gs =>
    let here := zerosAtHead (g :: gs)
    let later := longestRun (i + 1) gs
    if here ≥ later.2 ∧ here > 0 then (i, here) else later

/-- Eight groups, the longest run of zeros left out. -/
def printV6 (gs : List UInt16) : List Char :=
  let (start, length) := longestRun 0 gs
  if length > 1 then
    printGroups (gs.take start) ++ ':' :: ':' :: printGroups (gs.drop (start + length))
  else printGroups gs

/-- The text of an address. One of version 6 that stands for one of version 4 is written so. -/
def print : IpAddress → List Char
  | .v4 a b c d => printV4 a b c d
  | .v6 gs _ =>
    match gs with
    | [0, 0, 0, 0, 0, 0xFFFF, x, y] =>
      [':', ':', 'f', 'f', 'f', 'f', ':'] ++
        printV4 (UInt8.ofNat (x.toNat / 256)) (UInt8.ofNat (x.toNat % 256))
          (UInt8.ofNat (y.toNat / 256)) (UInt8.ofNat (y.toNat % 256))
    | _ => printV6 gs

end IpAddress

/-! ## Endpoints -/

/-- A port of a host. -/
structure Endpoint where
  address : IpAddress
  port : UInt16
  deriving DecidableEq, Repr

namespace Endpoint

/-- An address and a port; an address that has colons itself is enclosed in brackets. -/
def print (e : Endpoint) : String :=
  String.ofList <|
    match e.address with
    | .v4 .. => e.address.print ++ ':' :: Decimal.ofNat e.port.toNat
    | .v6 .. => '[' :: (e.address.print ++ ']' :: ':' :: Decimal.ofNat e.port.toNat)

/-- The port that a whole text stands for. -/
def parsePort? (s : List Char) : Option UInt16 :=
  match IpAddress.digits IpAddress.decimal? s with
  | (ds, []) =>
    if ds = [] ∨ IpAddress.value 10 ds ≥ 0x10000 then none
    else some (UInt16.ofNat (IpAddress.value 10 ds))
  | _ => none

/-- The endpoint that a text stands for. -/
def parse? (s : List Char) : Option Endpoint :=
  match s with
  | '[' :: rest =>
    match rest.dropWhile (· ≠ ']') with
    | ']' :: ':' :: port => do
      let address ← IpAddress.parseV6? (rest.takeWhile (· ≠ ']'))
      let port ← parsePort? port
      some ⟨address, port⟩
    | _ => none
  | _ =>
    match IpAddress.readV4 s with
    | some ((a, b, c, d), ':' :: port) => do
      let port ← parsePort? port
      some ⟨.v4 a b c d, port⟩
    | _ => none

end Endpoint

end HealthService
