/-!
# Blanks

Three different sets of blanks occur in the formats of this library: the four blanks of JSON, the
five of ASCII, and the white space of Unicode. They are kept apart here.
-/

namespace HealthService.Blank

/-- Space, tab, line feed, carriage return. -/
def isJsonByte (b : UInt8) : Bool := b == 0x20 || b == 0x09 || b == 0x0A || b == 0x0D

/-- The JSON blanks and the form feed; the vertical tab is none. -/
def isAsciiByte (b : UInt8) : Bool := isJsonByte b || b == 0x0C

/-- White space of Unicode. -/
def isUnicode (c : Char) : Bool :=
  let n := c.toNat
  (0x09 ≤ n && n ≤ 0x0D) || n == 0x20 || n == 0x85 || n == 0xA0 || n == 0x1680 ||
  (0x2000 ≤ n && n ≤ 0x200A) || n == 0x2028 || n == 0x2029 || n == 0x202F || n == 0x205F ||
  n == 0x3000

/-- A text without the white space at its two ends. -/
def trim (s : List Char) : List Char :=
  ((s.dropWhile isUnicode).reverse.dropWhile isUnicode).reverse

/-- Whether nothing but white space stands in a text. -/
def isBlank (s : List Char) : Bool := s.all isUnicode

end HealthService.Blank
