import HealthService.OsError
import HealthService.Text.Utf8

/-!
# Files

What may be found at a path, and what reading it comes to.
-/

namespace HealthService

/-- What is found at a path. -/
inductive FileState where
  | missing
  | directory
  | content (bytes : Bytes)
  deriving DecidableEq, Repr

/-- Why a file cannot be read as text. -/
inductive FileError where
  | os (error : OsError)
  | notUtf8
  deriving DecidableEq, Repr

/-- An error in words. -/
def FileError.message : FileError → String
  | .os error => error.message
  | .notUtf8 => "stream did not contain valid UTF-8"

namespace FileState

/-- The bytes in a file. -/
def bytes : FileState → Except OsError Bytes
  | .missing => .error .missing
  | .directory => .error .directory
  | .content b => .ok b

/-- The text in a file. -/
def text (f : FileState) : Except FileError (List Char) :=
  match f.bytes with
  | .error e => .error (.os e)
  | .ok b =>
    match Utf8.decode? b with
    | some s => .ok s
    | none => .error .notUtf8

end FileState

end HealthService
