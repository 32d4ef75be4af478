/-!
# A place in a YAML text

A `Cursor` is what is left of a text together with the place where it begins. Line ends of every
kind are read as what they mean, so the rest of the reader knows only one kind of line feed and the
two separators of Unicode.
-/

namespace HealthService.Yaml

/-- Whether a character ends a line. -/
def isBreak (c : Char) : Bool :=
  c = '\n' || c = '\r' || c = '\u0085' || c = '\u2028' || c = '\u2029'

/-- Space or tab. -/
def isBlank (c : Char) : Bool := c = ' ' || c = '\t'

/-- Whether a character may occur in a text at all. -/
def isAllowed (c : Char) : Bool :=
  let n := c.toNat
  n = 0x09 || n = 0x0A || n = 0x0D || (0x20 ≤ n && n ≤ 0x7E) || n = 0x85
    || (0xA0 ≤ n && n ≤ 0xD7FF) || (0xE000 ≤ n && n ≤ 0xFFFD) || 0x10000 ≤ n

/-- A letter, a digit, `_` or `-`. -/
def isWord (c : Char) : Bool :=
  ('0' ≤ c && c ≤ '9') || ('a' ≤ c && c ≤ 'z') || ('A' ≤ c && c ≤ 'Z') || c = '_' || c = '-'

/-- What is left of a text, and where it begins. -/
structure Cursor where
  rest : List Char
  index : Nat := 0
  line : Nat := 0
  column : Nat := 0

namespace Cursor

/-- The character so many places ahead. -/
def at? (c : Cursor) (n : Nat) : Option Char := c.rest[n]?

/-- Whether a given character stands so many places ahead. -/
def holds (c : Cursor) (n : Nat) (x : Char) : Bool := c.at? n == some x

/-- Whether nothing is left. -/
def atEnd (c : Cursor) : Bool := c.rest.isEmpty

/-- Whether a line ends here. -/
def atBreak (c : Cursor) : Bool := (c.at? 0).any isBreak

/-- Whether a blank stands here. -/
def atBlank (c : Cursor) : Bool := (c.at? 0).any isBlank

/-- Whether the line or the text ends so many places ahead. -/
def breakOrEnd (c : Cursor) (n : Nat) : Bool :=
  match c.at? n with
  | none => true
  | some x => isBreak x

/-- Whether a blank, a line end or the end of the text stands so many places ahead. -/
def blankOrEnd (c : Cursor) (n : Nat) : Bool :=
  match c.at? n with
  | none => true
  | some x => isBreak x || isBlank x

/-- After so many characters of one line. -/
def skip (c : Cursor) (n : Nat) : Cursor :=
  { c with rest := c.rest.drop n, index := c.index + n, column := c.column + n }

/-- After the characters of one line that have a property. -/
def skipWhile (c : Cursor) (p : Char → Bool) : Cursor := c.skip (c.rest.takeWhile p).length

/-- After a line end. -/
def skipLine (c : Cursor) : Cursor :=
  let n := if c.holds 0 '\r' && c.holds 1 '\n' then 2 else 1
  { rest := c.rest.drop n, index := c.index + n, line := c.line + 1, column := 0 }

/-- What a line end here stands for; nothing if there is none. -/
def lineEnd (c : Cursor) : List Char :=
  match c.at? 0 with
  | some x =>
    if x = '\u2028' ∨ x = '\u2029' then [x] else if isBreak x then ['\n'] else []
  | none => []

/-- The line end here and the place after it; without one nothing happens. -/
def readLine (c : Cursor) : List Char × Cursor :=
  if c.atBreak then (c.lineEnd, c.skipLine) else ([], c)

/-- Whether a line begins here with a given mark of three characters that stands alone. -/
def atMark (c : Cursor) (x : Char) : Bool :=
  c.column = 0 && c.holds 0 x && c.holds 1 x && c.holds 2 x && c.blankOrEnd 3

/-- Whether a line begins here that separates documents. -/
def atDocumentMark (c : Cursor) : Bool := c.atMark '-' || c.atMark '.'

end Cursor

end HealthService.Yaml
