import HealthService.Json.Basic
import HealthService.Decimal.Shortest

/-!
# JSON text

The compact text of a value: no blanks, members in the order in which the value holds them, strings
with the fewest escapes, doubles with the fewest digits that read back.
-/

namespace HealthService.Json

/-- Doubles in JSON text: the shortest digits, always with a point or an exponent. -/
def doubleStyle : DoubleStyle where
  finite := Decimal.mixed
  zero := ['0', '.', '0']
  infinite := ['n', 'u', 'l', 'l']
  notANumber := ['n', 'u', 'l', 'l']

/-- A hexadecimal digit, lower case. -/
def hexDigit (n : Nat) : Char := Nat.digitChar n

/-- A character inside a string literal: quotes, backslashes and control characters are escaped,
with the short escape where there is one. -/
def escapeChar (c : Char) : List Char :=
  if c = '"' then ['\\', '"']
  else if c = '\\' then ['\\', '\\']
  else if c.toNat < 0x20 then
    if c = '\x08' then ['\\', 'b']
    else if c = '\x0c' then ['\\', 'f']
    else if c = '\n' then ['\\', 'n']
    else if c = '\r' then ['\\', 'r']
    else if c = '\t' then ['\\', 't']
    else ['\\', 'u', '0', '0', hexDigit (c.toNat / 16), hexDigit (c.toNat % 16)]
  else [c]

/-- The body of a string literal. -/
def escape (s : List Char) : List Char := s.flatMap escapeChar

/-- A string literal. -/
def quote (s : String) : List Char := '"' :: (escape s.toList ++ ['"'])

/-- Pieces with commas between them. -/
def joinCommas : List (List Char) → List Char
  | [] => []
  | [p] => p
  | p :: ps => p ++ ',' :: joinCommas ps

/-- A list of already written items. -/
def bracket (items : List (List Char)) : List Char := '[' :: (joinCommas items ++ [']'])

/-- A written member of an object. -/
def member (key : String) (value : List Char) : List Char := quote key ++ ':' :: value

/-- An object of already written members. -/
def brace (members : List (List Char)) : List Char :=
  '\x7b' :: (joinCommas members ++ ['\x7d'])

mutual
/-- The text of a value. -/
def print : Json → List Char
  | .null => ['n', 'u', 'l', 'l']
  | .bool true => ['t', 'r', 'u', 'e']
  | .bool false => ['f', 'a', 'l', 's', 'e']
  | .int n => Decimal.ofInt n.val
  | .float bits => doubleStyle.write bits
  | .text s => quote s
  | .list items => bracket (printItems items)
  | .object members => brace (printMembers members)
/-- The texts of the items of a list. -/
def printItems : List Json → List (List Char)
  | [] => []
  | j :: rest => print j :: printItems rest
/-- The texts of the members of an object. -/
def printMembers : List (String × Json) → List (List Char)
  | [] => []
  | (k, j) :: rest => member k (print j) :: printMembers rest
end

/-- The text of a value as a string. -/
def toText (j : Json) : String := String.ofList (print j)

end HealthService.Json
