import HealthService.Config.Basic
import HealthService.FileState
import HealthService.Tls.KeyPair

/-!
# The identity of a server

To speak TLS a server needs a chain of certificates and the private key that belongs to the first of
them, each from a file of its own. `Config.Tls.load` reads the two files, the certificates first, and
tells what is wrong with them.
-/

namespace HealthService

/-- With what a server identifies itself: its certificate, those that vouch for it, and its key. -/
structure ServerIdentity where
  certificate : Certificate
  chain : List Certificate
  key : PrivateKey
  deriving DecidableEq, Repr

/-- Why a server has no identity. -/
inductive TlsError where
  | unreadable (path : String) (error : OsError)
  | brokenCertificates (path : String)
  | noCertificates (path : String)
  | brokenKey (path : String)
  | noKey (path : String)
  | mismatch
  deriving DecidableEq, Repr

/-- What went wrong, and then its cause if there is more to say. -/
def TlsError.chain : TlsError → List String
  | .unreadable path error => ["Failed to read " ++ path, error.message]
  | .brokenCertificates path => ["Failed to parse certificates in " ++ path]
  | .noCertificates path => ["no certificates found in " ++ path]
  | .brokenKey path => ["Failed to parse private key in " ++ path]
  | .noKey path => ["no private key found in " ++ path]
  | .mismatch => ["TLS certificate and key do not form a valid pair"]

namespace Config.Tls

/-- Reads a file. -/
def readPem (path : String) (files : String → FileState) : Except TlsError Pem :=
  match (files path).bytes with
  | .ok b => .ok (.read b)
  | .error e => .error (.unreadable path e)

/-- The certificates in a file; a mistake anywhere spoils them all. -/
def readCertificates (path : String) (files : String → FileState) :
    Except TlsError (Certificate × List Certificate) := do
  let pem ← readPem path files
  if pem.broken then .error (.brokenCertificates path)
  else
    match pem.certificates with
    | [] => .error (.noCertificates path)
    | c :: cs => .ok (c, cs)

/-- The first private key in a file; what follows it does not matter. -/
def readKey (path : String) (files : String → FileState) : Except TlsError PrivateKey := do
  let pem ← readPem path files
  match pem.privateKey? with
  | some k => .ok k
  | none => .error (if pem.broken then .brokenKey path else .noKey path)

/-- Reads the identity of a server. -/
def load (t : Config.Tls) (files : String → FileState) : Except TlsError ServerIdentity := do
  let (certificate, chain) ← readCertificates t.certPath files
  let key ← readKey t.keyPath files
  if key.fits certificate then .ok ⟨certificate, chain, key⟩ else .error .mismatch

end Config.Tls

end HealthService
