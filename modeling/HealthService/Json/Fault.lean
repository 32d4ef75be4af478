import HealthService.Decimal.Shortest
import HealthService.Json.Printer
import HealthService.Text.Quoted

/-!
# What can be wrong with a document

A `Mismatch` is a value of the wrong shape: wrong type, out of range, a member missing or repeated.
A `Cause` is anything that stops the reading of JSON text: a mismatch or a fault of the text itself.
A `Fault` is a cause together with what was left to read where it was noticed, from which
`Fault.locate` works out line and column.
-/

namespace HealthService

/-- What stands where something else was expected. -/
inductive Found where
  | null
  | bool (b : Bool)
  | int (n : Int)
  | float (bits : UInt64)
  | text (s : String)
  | list
  | object
  deriving DecidableEq, Repr

/-- A found value in the words of a message. -/
def Found.describe : Found → String
  | .null => "null"
  | .bool true => "boolean `true`"
  | .bool false => "boolean `false`"
  | .int n => "integer `" ++ String.ofList (Decimal.ofInt n) ++ "`"
  | .float bits => "floating point `" ++ String.ofList (Json.doubleStyle.write bits) ++ "`"
  | .text s => "string " ++ Quoted.ofString s
  | .list => "sequence"
  | .object => "map"

/-- A value of the wrong shape. -/
inductive Mismatch where
  | wrongType (found : Found) (expected : String)
  | wrongValue (found : Found) (expected : String)
  | missingMember (key : String)
  | repeatedMember (key : String)
  | unknownVariant (name : String) (expected : List String)
  | wrongLength (length : Nat) (expected : String)
  /-- The value has the right type, but its text does not say what it should. -/
  | refused (reason : String)
  deriving DecidableEq, Repr

/-- A list of alternatives: `a`, `a or b`, or `one of a, b, c`, each between backquotes. -/
def describeAlternatives : List String → String
  | [] => "nothing"
  | [a] => "`" ++ a ++ "`"
  | [a, b] => "`" ++ a ++ "` or `" ++ b ++ "`"
  | names => "one of " ++ ", ".intercalate (names.map fun n => "`" ++ n ++ "`")

/-- A mismatch in words. -/
def Mismatch.message : Mismatch → String
  | .wrongType found expected => "invalid type: " ++ found.describe ++ ", expected " ++ expected
  | .wrongValue found expected => "invalid value: " ++ found.describe ++ ", expected " ++ expected
  | .missingMember key => "missing field `" ++ key ++ "`"
  | .repeatedMember key => "duplicate field `" ++ key ++ "`"
  | .unknownVariant name expected =>
    "unknown variant `" ++ name ++ "`, expected " ++ describeAlternatives expected
  | .wrongLength length expected =>
    "invalid length " ++ String.ofList (Decimal.ofNat length) ++ ", expected " ++ expected
  | .refused reason => reason

namespace Json

/-- Why JSON text was not accepted. -/
inductive Cause where
  | endInValue
  | endInString
  | endInList
  | endInObject
  | expectedValue
  | expectedWord
  | keyNotString
  | trailingComma
  | trailingCharacters
  | expectedColon
  | expectedCommaOrBracket
  | expectedCommaOrBrace
  | invalidNumber
  | numberOutOfRange
  | invalidEscape
  | endOfHexEscape
  | loneSurrogate
  | controlCharacter
  | invalidCodePoint
  | tooDeep
  | shape (m : Mismatch)
  deriving DecidableEq, Repr

/-- A cause in words. -/
def Cause.message : Cause → String
  | .endInValue => "EOF while parsing a value"
  | .endInString => "EOF while parsing a string"
  | .endInList => "EOF while parsing a list"
  | .endInObject => "EOF while parsing an object"
  | .expectedValue => "expected value"
  | .expectedWord => "expected ident"
  | .keyNotString => "key must be a string"
  | .trailingComma => "trailing comma"
  | .trailingCharacters => "trailing characters"
  | .expectedColon => "expected `:`"
  | .expectedCommaOrBracket => "expected `,` or `]`"
  | .expectedCommaOrBrace => "expected `,` or `\x7d`"
  | .invalidNumber => "invalid number"
  | .numberOutOfRange => "number out of range"
  | .invalidEscape => "invalid escape"
  | .endOfHexEscape => "unexpected end of hex escape"
  | .loneSurrogate => "lone leading surrogate in hex escape"
  | .controlCharacter => "control character (\\u0000-\\u001F) found while parsing a string"
  | .invalidCodePoint => "invalid unicode code point"
  | .tooDeep => "recursion limit exceeded"
  | .shape m => m.message

/-- A cause, and what was left to read where it was noticed. -/
structure Fault where
  cause : Cause
  rest : Bytes
  deriving DecidableEq, Repr

/-- A line, counted from one, and a column, counted in bytes after the last line feed. -/
structure Position where
  line : Nat
  column : Nat
  deriving DecidableEq, Repr

/-- The position after one more byte. -/
def Position.step (p : Position) (b : UInt8) : Position :=
  if b = 0x0A then ⟨p.line + 1, 0⟩ else ⟨p.line, p.column + 1⟩

/-- The position after some bytes. -/
def Position.after (b : Bytes) : Position := b.foldl Position.step ⟨1, 0⟩

/-- A cause and its place in the input. -/
structure Error where
  cause : Cause
  position : Position
  deriving DecidableEq, Repr

/-- A fault with its place in the input. -/
def Fault.locate (f : Fault) (input : Bytes) : Error :=
  ⟨f.cause, Position.after (input.take (input.length - f.rest.length))⟩

/-- An error in words. -/
def Error.message (e : Error) : String :=
  e.cause.message ++ " at line " ++ String.ofList (Decimal.ofNat e.position.line)
    ++ " column " ++ String.ofList (Decimal.ofNat e.position.column)

end Json

end HealthService
