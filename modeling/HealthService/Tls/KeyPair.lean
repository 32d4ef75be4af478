import HealthService.Tls.Der
import HealthService.Tls.Pem

/-!
# Certificates and their keys

A certificate names a public key, and so does every private key that can be used here: one for RSA, or
one for the elliptic curves P-256 and P-384. They belong together if it is the same public key.
-/

namespace HealthService

/-- A certificate. -/
structure Certificate where
  der : Bytes
  deriving DecidableEq, Repr

/-- A private key in one of the three forms. -/
inductive PrivateKey where
  /-- RSA only. -/
  | rsa (der : Bytes)
  /-- Elliptic curves only. -/
  | ec (der : Bytes)
  /-- Either of them, with its name. -/
  | named (der : Bytes)
  deriving DecidableEq, Repr

/-! ## Public keys -/

/-- A public key as it stands in certificates. -/
def publicKeyInfo (algorithm key : Bytes) : Bytes :=
  Der.encode Der.sequence (Der.encode Der.sequence algorithm ++ Der.encode Der.bitString (0 :: key))

/-- The public key of a certificate, if this is one of version 3. -/
def Certificate.publicKey? (c : Certificate) : Option Bytes := do
  let whole ← Der.only? Der.sequence c.der
  let (signed, rest) ← Der.element? Der.sequence whole
  let (algorithm, rest) ← Der.element? Der.sequence rest
  let signature ← Der.only? Der.bitString rest
  let _ ← Der.wholeBytes? signature
  let (version, rest) ← Der.element? (Der.member 0) signed
  let (_serial, rest) ← Der.element? Der.integer rest
  let (inner, rest) ← Der.element? Der.sequence rest
  let (_issuer, rest) ← Der.element? Der.sequence rest
  let (_validity, rest) ← Der.element? Der.sequence rest
  let (_subject, rest) ← Der.element? Der.sequence rest
  let (info, rest) ← Der.element? Der.sequence rest
  let extensions := rest = [] ∨ (Der.only? (Der.member 3) rest).isSome
  if version = [Der.integer, 1, 2] ∧ inner = algorithm ∧ extensions then
    some (Der.encode Der.sequence info)
  else none

/-! ## Elliptic curves -/

/-- An elliptic curve: its name, and the number of bytes of a coordinate. -/
structure Curve where
  name : Bytes
  size : Nat
  deriving DecidableEq, Repr

namespace Curve

/-- The curve P-256. -/
def p256 : Curve := ⟨[0x06, 0x08, 0x2A, 0x86, 0x48, 0xCE, 0x3D, 0x03, 0x01, 0x07], 32⟩

/-- The curve P-384. -/
def p384 : Curve := ⟨[0x06, 0x05, 0x2B, 0x81, 0x04, 0x00, 0x22], 48⟩

/-- The algorithm of keys on a curve. -/
def algorithm (c : Curve) : Bytes :=
  [0x06, 0x07, 0x2A, 0x86, 0x48, 0xCE, 0x3D, 0x02, 0x01] ++ c.name

/-- The public key in a private key on a curve: a point, written as its two coordinates. -/
def publicKey? (c : Curve) (der : Bytes) : Option Bytes := do
  let whole ← Der.only? Der.sequence der
  let (version, rest) ← Der.element? Der.integer whole
  let (secret, rest) ← Der.element? Der.octetString rest
  let (name, rest) := (Der.element? (Der.member 0) rest).getD (c.name, rest)
  let bits ← Der.only? (Der.member 1) rest
  let point ← Der.only? Der.bitString bits
  let key ← Der.wholeBytes? point
  if version = [1] ∧ secret.length = c.size ∧ name = c.name ∧ key.length = 2 * c.size + 1
      ∧ key.head? = some 4 then
    some (publicKeyInfo c.algorithm key)
  else none

end Curve

/-! ## RSA -/

/-- The algorithm of keys for RSA. -/
def rsaAlgorithm : Bytes :=
  [0x06, 0x09, 0x2A, 0x86, 0x48, 0x86, 0xF7, 0x0D, 0x01, 0x01, 0x01, 0x05, 0x00]

/-- Reads positive numbers up to the end. -/
def positives? (count : Nat) (b : Bytes) : Option (List Nat) :=
  match count with
  | 0 => if b = [] then some [] else none
  | count + 1 => do
    let (n, rest) ← Der.positive? b
    let ns ← positives? count rest
    some (n :: ns)

/-- The public key in a private key for RSA: the product of its two primes, of 2048 to 4096 bits, and
an exponent. -/
def rsaPublicKey? (der : Bytes) : Option Bytes := do
  let whole ← Der.only? Der.sequence der
  let (version, rest) ← Der.element? Der.integer whole
  match ← positives? 8 rest with
  | [n, e, _, p, q, _, _, _] =>
    if version = [0] ∧ p * q = n ∧ Nat.pow 2 2047 ≤ n ∧ n < Nat.pow 2 4096 then
      some (publicKeyInfo rsaAlgorithm
        (Der.encode Der.sequence (Der.encodePositive n ++ Der.encodePositive e)))
    else none
  | _ => none

/-! ## Private keys -/

namespace PrivateKey

/-- The public key in a private key that names its algorithm. -/
def namedPublicKey? (der : Bytes) : Option Bytes := do
  let whole ← Der.only? Der.sequence der
  let (version, rest) ← Der.element? Der.integer whole
  let (algorithm, rest) ← Der.element? Der.sequence rest
  let (key, rest) ← Der.element? Der.octetString rest
  let attributes := rest = [] ∨ (Der.only? (Der.member 0) rest).isSome
  if version = [0] ∧ attributes then
    if algorithm = rsaAlgorithm then rsaPublicKey? key
    else if algorithm = Curve.p256.algorithm then Curve.p256.publicKey? key
    else if algorithm = Curve.p384.algorithm then Curve.p384.publicKey? key
    else none
  else none

/-- The public key in a private key. -/
def publicKey? : PrivateKey → Option Bytes
  | .rsa der => rsaPublicKey? der
  | .ec der => (Curve.p256.publicKey? der).or (Curve.p384.publicKey? der)
  | .named der => namedPublicKey? der

/-- Whether a private key belongs to a certificate. -/
def fits (k : PrivateKey) (c : Certificate) : Bool :=
  match k.publicKey?, c.publicKey? with
  | some a, some b => a = b
  | _, _ => false

end PrivateKey

/-! ## Files -/

namespace PemSection

/-- The certificate in a section. -/
def certificate? (s : PemSection) : Option Certificate :=
  if s.label = .certificate then some ⟨s.content⟩ else none

/-- The private key in a section. -/
def privateKey? (s : PemSection) : Option PrivateKey :=
  match s.label with
  | .rsaPrivateKey => some (.rsa s.content)
  | .ecPrivateKey => some (.ec s.content)
  | .privateKey => some (.named s.content)
  | _ => none

end PemSection

namespace Pem

/-- The certificates in a file. -/
def certificates (p : Pem) : List Certificate := p.sections.filterMap PemSection.certificate?

/-- The first private key in a file. -/
def privateKey? (p : Pem) : Option PrivateKey := p.sections.findSome? PemSection.privateKey?

end Pem

end HealthService
