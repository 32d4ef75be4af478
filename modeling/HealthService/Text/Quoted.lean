import HealthService.Text.Unprintable

/-!
# Quoted text

Messages that name a text put it between quotes, so that blanks at its ends, control characters and
look-alikes stay visible. Quotes and backslashes are escaped, the usual blanks have short escapes,
and every other hidden character is written by its code point.
-/

namespace HealthService.Quoted

/-- A code point in lower-case hexadecimal. -/
def hex (n : Nat) : List Char := Nat.toDigits 16 n

/-- One character between quotes. -/
def writeChar (c : Char) : List Char :=
  if c = '\x00' then ['\\', '0']
  else if c = '\t' then ['\\', 't']
  else if c = '\r' then ['\\', 'r']
  else if c = '\n' then ['\\', 'n']
  else if c = '\\' then ['\\', '\\']
  else if c = '"' then ['\\', '"']
  else if Unprintable.isHidden c then
    ['\\', 'u', '\x7b'] ++ hex c.toNat ++ ['\x7d']
  else [c]

/-- A text between quotes. -/
def write (s : List Char) : List Char := '"' :: (s.flatMap writeChar ++ ['"'])

/-- A string between quotes. -/
def ofString (s : String) : String := String.ofList (write s.toList)

/-- Quoted strings in brackets, with commas between them. -/
def ofStrings (ss : List String) : String :=
  "[" ++ ", ".intercalate (ss.map ofString) ++ "]"

end HealthService.Quoted
