import HealthService.Digest.Sha256
import HealthService.Http.Message
import HealthService.Text.Base64
import HealthService.Text.Blank

/-!
# Credentials

A client shows who it is by a name and a password in the header `authorization`: the word `Basic`,
a space, and the base64 text of both with a colon between them. Of the expected name and password
only digests are kept.

`Credentials.admits` compares digests byte by byte, without stopping at the first difference.
-/

namespace HealthService

/-- The digests of a name and a password, and how a client is told to show them. -/
structure Credentials where
  username : Bytes
  password : Bytes
  challenge : Bytes
  deriving DecidableEq, Repr

namespace Credentials

/-- The digest of a text. -/
def digest (s : String) : Bytes := Sha256.digest (Utf8.ofString s)

/-- The challenge for a realm. -/
def challengeOf (realm : String) : Bytes := Utf8.ofString ("Basic realm=\"" ++ realm ++ "\"")

/-- The realm of those who name none. -/
def defaultRealm : String := "Restricted"

/-- The credentials of a name and a password. A realm that is empty, or that cannot stand in a
header, is replaced by the usual one. -/
def new (username password : String) (realm : Option String) : Credentials where
  username := digest username
  password := digest password
  challenge :=
    let wanted := challengeOf ((realm.filter (· ≠ "")).getD defaultRealm)
    if Headers.isValue wanted then wanted else challengeOf defaultRealm

/-- Splits a text at the first occurrence of a character. -/
def splitFirst (mark : Char) : List Char → Option (List Char × List Char)
  | [] => none
  | c :: cs =>
    if c = mark then some ([], cs)
    else (splitFirst mark cs).map fun (a, b) => (c :: a, b)

/-- The name and password in the value of a header. -/
def decode (value : Bytes) : Option (String × String) := do
  let text ← Headers.text? value
  let (scheme, encoded) ← splitFirst ' ' text.toList
  if Headers.lower (String.ofList scheme) = "basic" then
    let bytes ← Base64.decode (Utf8.encode (Blank.trim encoded))
    let decoded ← Utf8.decode? bytes
    let (username, password) ← splitFirst ':' decoded
    some (String.ofList username, String.ofList password)
  else none

/-- Whether two digests agree: all their differences together are none. -/
def agree (a b : Bytes) : Bool := (List.zipWith (· ^^^ ·) a b).foldl (· ||| ·) 0 = 0

/-- Whether a header shows these credentials. -/
def admits (c : Credentials) (value : Option Bytes) : Bool :=
  match value.bind decode with
  | some (username, password) =>
    agree c.username (digest username) && agree c.password (digest password)
  | none => false

end Credentials

end HealthService
