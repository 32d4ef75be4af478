import HealthService.Format.FormReader
import HealthService.Problem

/-!
# Request bodies

A body arrives in chunks and may break off. `Body.read` collects it as long as it does not grow
beyond a bound; `Body.decodeJson` and `Body.decodeForm` then read a value of a format from it.
-/

namespace HealthService

/-- A piece of a body as it arrives. -/
inductive Chunk where
  | data (b : Bytes)
  | failure (reason : String)
  deriving DecidableEq, Repr

/-- Why a body gave no value. -/
inductive BodyError where
  | empty
  | tooLarge (limit : Nat)
  | invalidJson (error : Json.Error)
  | invalidForm (mismatch : Mismatch)
  | read (reason : String)
  deriving DecidableEq, Repr

/-- An error in words. -/
def BodyError.message : BodyError → String
  | .empty => "empty request body"
  | .tooLarge limit =>
    "request body exceeds maximum size of " ++ String.ofList (Decimal.ofNat limit) ++ " bytes"
  | .invalidJson error => "invalid JSON: " ++ error.message
  | .invalidForm mismatch => "invalid form data: " ++ mismatch.message
  | .read reason =>
    "failed to read request body: error reading a body from connection: " ++ reason

/-- The problem that tells a client of an error. -/
def BodyError.toProblem (e : BodyError) : Problem :=
  match e with
  | .tooLarge _ => Problem.payloadTooLarge e.message
  | _ => Problem.badRequest e.message

namespace Body

/-- How long a body may be unless something else is said. -/
def defaultLimit : Nat := 1048576

/-- `read` with the bytes so far, newest first, and their number. -/
def readAux (limit : Nat) : Nat → Bytes → List Chunk → Except BodyError Bytes
  | _, acc, [] => .ok acc.reverse
  | _, _, .failure reason :: _ => .error (.read reason)
  | size, acc, .data b :: rest =>
    let size := size + b.length
    if size > limit then .error (.tooLarge limit)
    else readAux limit size (b.reverse ++ acc) rest

/-- The bytes of a body of at most `limit` bytes. The first chunk that breaks off or goes too far
decides; no later one is looked at. -/
def read (limit : Nat) (chunks : List Chunk) : Except BodyError Bytes := readAux limit 0 [] chunks

/-- Reads a value from a body of JSON text. -/
def decodeJson {α : Type} (format : Format α) (limit : Nat) (chunks : List Chunk) :
    Except BodyError α := do
  let b ← read limit chunks
  if b.all Blank.isAsciiByte then .error .empty
  else match format.ofJson b with
    | .ok a => .ok a
    | .error e => .error (.invalidJson e)

/-- Reads a value from a body of form data. -/
def decodeForm {α : Type} (ofPairs : List (String × String) → Except Mismatch α) (limit : Nat)
    (chunks : List Chunk) : Except BodyError α := do
  let b ← read limit chunks
  match ofPairs (Form.pairs b) with
  | .ok a => .ok a
  | .error m => .error (.invalidForm m)

end Body

end HealthService
