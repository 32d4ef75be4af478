import HealthService.Net.Address
import HealthService.Text.Blank
import HealthService.Text.Percent

/-!
# Hosts of URLs

The host of a web address is a domain name or a network address. Before it is looked at, escapes are
resolved and names are brought into their ASCII form: lower case, and labels with other letters in
Punycode. A host whose last label is a number is an address of version 4, which may be written with
fewer than four parts and in octal or hexadecimal.
-/

namespace HealthService.Url

/-- Why a text is no URL. -/
inductive ParseError where
  | relative
  | emptyHost
  | invalidPort
  | invalidIpv4
  | invalidIpv6
  | invalidDomainName
  | invalidDomainCharacter
  deriving DecidableEq, Repr

/-- An error in words. -/
def ParseError.message : ParseError → String
  | .relative => "relative URL without a base"
  | .emptyHost => "empty host"
  | .invalidPort => "invalid port number"
  | .invalidIpv4 => "invalid IPv4 address"
  | .invalidIpv6 => "invalid IPv6 address"
  | .invalidDomainName => "invalid international domain name"
  | .invalidDomainCharacter => "invalid domain character"

/-- A host. -/
inductive Host where
  | domain (name : String)
  | address (ip : IpAddress)
  deriving DecidableEq, Repr

/-- The text of a host; addresses of version 6 stand in brackets. -/
def Host.print : Host → List Char
  | .domain name => name.toList
  | .address (.v4 a b c d) => IpAddress.printV4 a b c d
  | .address (.v6 gs _) => '[' :: (IpAddress.printV6 gs ++ [']'])

/-! ## Punycode -/

namespace Punycode

/-- A digit of base thirty-six: letters first. -/
def digit (d : Nat) : Char := if d < 26 then Char.ofNat (0x61 + d) else Char.ofNat (0x30 + d - 26)

/-- The value of a digit. -/
def digit? (c : Char) : Option Nat :=
  let n := c.toNat
  if 0x61 ≤ n ∧ n ≤ 0x7A then some (n - 0x61)
  else if 0x30 ≤ n ∧ n ≤ 0x39 then some (n - 0x30 + 26)
  else none

/-- The threshold of the `k`-th step of digits. -/
def threshold (k bias : Nat) : Nat :=
  if k ≤ bias then 1 else if bias + 26 ≤ k then 26 else k - bias

/-- Divides by 35 until the rest is small; the first number bounds the steps. -/
def shrink : Nat → Nat → Nat → Nat × Nat
  | 0, delta, k => (delta, k)
  | n + 1, delta, k => if 455 < delta then shrink n (delta / 35) (k + 36) else (delta, k)

/-- The next bias. -/
def adapt (delta points : Nat) (first : Bool) : Nat :=
  let d := if first then delta / 700 else delta / 2
  let r := shrink 64 (d + d / points) 0
  r.2 + 36 * r.1 / (r.1 + 38)

/-- A number in digits of varying weight; the first number bounds them. -/
def writeNumber : Nat → Nat → Nat → Nat → List Char
  | 0, _, _, _ => []
  | n + 1, bias, k, q =>
    let t := threshold k bias
    if q < t then [digit q]
    else digit (t + (q - t) % (36 - t)) :: writeNumber n bias (k + 36) ((q - t) / (36 - t))

/-- What encoding carries along. -/
structure Encoding where
  out : List Char
  delta : Nat
  bias : Nat
  handled : Nat

/-- Looks at one character while `m` is the next code point to be inserted. -/
def look (basic m : Nat) (e : Encoding) (c : Char) : Encoding :=
  if c.toNat < m then { e with delta := e.delta + 1 }
  else if c.toNat = m then
    { out := e.out ++ writeNumber 64 e.bias 36 e.delta, delta := 0
      bias := adapt e.delta (e.handled + 1) (e.handled = basic), handled := e.handled + 1 }
  else e

/-- Inserts the code points in increasing order. -/
def insertAll (s : List Char) (basic : Nat) : List Nat → Nat → Encoding → Encoding
  | [], _, e => e
  | m :: ms, n, e =>
    let e := s.foldl (look basic m) { e with delta := e.delta + (m - n) * (e.handled + 1) }
    insertAll s basic ms (m + 1) { e with delta := e.delta + 1 }

/-- A label in ASCII letters. -/
def encode (s : List Char) : List Char :=
  let basic := s.filter fun c => c.toNat < 0x80
  let others := ((s.filter fun c => c.toNat ≥ 0x80).map Char.toNat).mergeSort.eraseDups
  let e := insertAll s basic.length others 128 ⟨[], 0, 72, basic.length⟩
  (if basic = [] then [] else basic ++ ['-']) ++ e.out

/-- Reads a number in digits of varying weight. -/
def readNumber (bias : Nat) : Nat → Nat → Nat → List Char → Option (Nat × List Char)
  | _, _, _, [] => none
  | k, w, i, c :: cs =>
    match digit? c with
    | none => none
    | some d =>
      let i := i + d * w
      let t := threshold k bias
      if d < t then some (i, cs) else readNumber bias (k + 36) (w * (36 - t)) i cs

/-- Inserts the code points that digits name; the first number bounds them. -/
def readAll : Nat → List Char → Nat → Nat → Nat → List Char → Option (List Char)
  | 0, out, _, _, _, _ => some out
  | _ + 1, out, _, _, _, [] => some out
  | fuel + 1, out, n, i, bias, cs =>
    match readNumber bias 36 1 i cs with
    | none => none
    | some (j, rest) =>
      let length := out.length + 1
      let n := n + j / length
      let place := j % length
      if n < 0x110000 ∧ ¬ (0xD800 ≤ n ∧ n ≤ 0xDFFF) then
        readAll fuel (out.take place ++ Char.ofNat n :: out.drop place) n (place + 1)
          (adapt (j - i) length (i = 0)) rest
      else none

/-- The label that ASCII letters stand for. -/
def decode? (s : List Char) : Option (List Char) :=
  let tail := (s.reverse.takeWhile (· ≠ '-')).reverse
  let basic := s.take (s.length - tail.length - 1)
  readAll tail.length basic 128 0 72 tail

end Punycode

/-! ## Domain names -/

/-- A letter in lower case, for the alphabets in which the two cases lie at a fixed distance. -/
def lowerChar (c : Char) : Char :=
  let n := c.toNat
  if (0x41 ≤ n ∧ n ≤ 0x5A) ∨ (0xC0 ≤ n ∧ n ≤ 0xDE ∧ n ≠ 0xD7) ∨ (0x391 ≤ n ∧ n ≤ 0x3A9)
      ∨ (0x410 ≤ n ∧ n ≤ 0x42F) ∨ (0xFF21 ≤ n ∧ n ≤ 0xFF3A) then Char.ofNat (n + 32)
  else if 0x400 ≤ n ∧ n ≤ 0x40F then Char.ofNat (n + 80)
  else if 0x100 ≤ n ∧ n ≤ 0x137 ∧ n % 2 = 0 then Char.ofNat (n + 1)
  else c

/-- A character of a name as it is compared: lower case, full-width letters as plain ones, every
full stop the same, and soft hyphens and joiners left out. -/
def foldChar (c : Char) : List Char :=
  let c := lowerChar c
  let n := c.toNat
  if n = 0xAD ∨ n = 0x200B ∨ n = 0x2060 ∨ n = 0xFEFF then []
  else if n = 0x3002 ∨ n = 0xFF0E ∨ n = 0xFF61 then ['.']
  else if 0xFF01 ≤ n ∧ n ≤ 0xFF5E then [Char.ofNat (n - 0xFEE0)]
  else [c]

/-- Characters that no domain name has. -/
def isForbidden (c : Char) : Bool :=
  c.toNat ≤ 0x20 || (0x7F ≤ c.toNat && c.toNat ≤ 0xA0) || Blank.isUnicode c ||
    ['#', '%', '/', ':', '<', '>', '?', '@', '[', '\\', ']', '^', '|'].contains c

/-- The pieces of a text between points. -/
def splitDots : List Char → List (List Char)
  | [] => [[]]
  | c :: cs =>
    if c = '.' then [] :: splitDots cs
    else match splitDots cs with
      | [] => [[c]]
      | p :: ps => (c :: p) :: ps

/-- Pieces with points between them. -/
def joinDots : List (List Char) → List Char
  | [] => []
  | [p] => p
  | p :: ps => p ++ '.' :: joinDots ps

/-- A label in its ASCII form. A label that claims to be in Punycode has to be so for a reason. -/
def labelToAscii (label : List Char) : Option (List Char) :=
  if label.take 4 = ['x', 'n', '-', '-'] then
    match Punycode.decode? (label.drop 4) with
    | some s =>
      if s.any (fun c => c.toNat ≥ 0x80) ∧ s.all (fun c => foldChar c = [c] ∧ !isForbidden c) then
        some label
      else none
    | none => none
  else if label.all fun c => c.toNat < 0x80 then some label
  else some (['x', 'n', '-', '-'] ++ Punycode.encode label)

/-- A domain name in its ASCII form. -/
def domainToAscii (b : Bytes) : Option (List Char) := do
  let s := (← Utf8.decode? b).flatMap foldChar
  if s.any isForbidden then none
  else
    let labels ← (splitDots s).mapM labelToAscii
    some (joinDots labels)

/-! ## Addresses of version 4 -/

/-- A part of an address: decimal, octal after `0`, or hexadecimal after `0x`. -/
def partValue? (s : List Char) : Option Nat :=
  let read (base : Nat) (digit? : Char → Option Nat) (s : List Char) : Option Nat :=
    if s = [] then some 0
    else (s.mapM digit?).bind fun ds =>
      if ds.all (· < base) then some (IpAddress.value base ds) else none
  match s with
  | [] => none
  | '0' :: 'x' :: rest => read 16 IpAddress.hex? rest
  | '0' :: 'X' :: rest => read 16 IpAddress.hex? rest
  | '0' :: c :: rest => read 8 IpAddress.decimal? (c :: rest)
  | s => read 10 IpAddress.decimal? s

/-- The last label, unless it is the only one and empty; an empty one at the end does not count. -/
def lastLabel? (labels : List (List Char)) : Option (List Char) :=
  match labels.reverse with
  | [] => none
  | [] :: rest => rest.head?
  | l :: _ => some l

/-- Whether a name has to be read as an address. -/
def endsInNumber (name : List Char) : Bool :=
  match lastLabel? (splitDots name) with
  | none => false
  | some l => (l ≠ [] && l.all fun c => '0' ≤ c && c ≤ '9') || (partValue? l).isSome

/-- The address that a name stands for. -/
def parseIpv4 (name : List Char) : Except ParseError IpAddress :=
  let labels := splitDots name
  let labels := if labels.getLast? = some [] then labels.dropLast else labels
  match labels.mapM partValue? with
  | none => .error .invalidIpv4
  | some numbers =>
    let first := numbers.dropLast
    let last := numbers.getLast?.getD 0
    if numbers.length > 4 ∨ numbers.any (fun n => n ≥ 0x100000000) ∨ first.any (fun n => n > 255)
        ∨ last ≥ Nat.pow 256 (4 - first.length) then .error .invalidIpv4
    else
      let n := first.zipIdx.foldl (fun acc (x, i) => acc + x * Nat.pow 256 (3 - i)) last
      .ok (.v4 (UInt8.ofNat (n / 0x1000000)) (UInt8.ofNat (n / 0x10000 % 256))
        (UInt8.ofNat (n / 256 % 256)) (UInt8.ofNat (n % 256)))

/-! ## Hosts -/

/-- The address in brackets. -/
def parseBracketed (s : List Char) : Except ParseError Host :=
  if s.getLast? = some ']' ∧ s.length ≥ 2 then
    match IpAddress.parseV6? (s.drop 1).dropLast with
    | some ip => .ok (.address ip)
    | none => .error .invalidIpv6
  else .error .invalidIpv6

/-- The host of a web address. -/
def Host.parse (s : List Char) : Except ParseError Host :=
  if s.head? = some '[' then parseBracketed s
  else match domainToAscii (Percent.decode (Utf8.encode s)) with
    | none => .error .invalidDomainName
    | some [] => .error .emptyHost
    | some name =>
      if endsInNumber name then do .ok (.address (← parseIpv4 name))
      else .ok (.domain (String.ofList name))

/-- Characters that are always escaped: controls and all that is not ASCII. -/
def isControl (c : Char) : Bool := c.toNat < 0x20 || c.toNat ≥ 0x7F

/-- The host of an address of another kind, which is kept as it is. -/
def Host.parseOpaque (s : List Char) : Except ParseError Host :=
  if s.head? = some '[' then parseBracketed s
  else if s.any fun c =>
      ['\x00', '\t', '\n', '\r', ' ', '#', '/', ':', '<', '>', '?', '@', '[', '\\', ']', '^',
        '|'].contains c then .error .invalidDomainCharacter
  else .ok (.domain (String.ofList (Percent.encode isControl s)))

end HealthService.Url
