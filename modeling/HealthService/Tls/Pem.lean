import HealthService.Text.Base64

/-!
# PEM files

A PEM file holds labelled sections of data in Base64, each between a line that opens it and a line
that closes it. Whatever stands outside of the sections is commentary, and so are sections whose label
means nothing to us.

`Pem.read` yields the sections in their order, up to the first mistake if there is one: a line that
looks as if it opened a section but does not, data that are not Base64, or the end of the file within a
section.
-/

namespace HealthService

/-- The labels that mean something. -/
inductive PemLabel where
  | certificate
  | publicKey
  | rsaPrivateKey
  | privateKey
  | ecPrivateKey
  | revocationList
  | certificateRequest
  | encryptedHello
  deriving DecidableEq, Repr

/-- A label in words. -/
def PemLabel.text : PemLabel → String
  | .certificate => "CERTIFICATE"
  | .publicKey => "PUBLIC KEY"
  | .rsaPrivateKey => "RSA PRIVATE KEY"
  | .privateKey => "PRIVATE KEY"
  | .ecPrivateKey => "EC PRIVATE KEY"
  | .revocationList => "X509 CRL"
  | .certificateRequest => "CERTIFICATE REQUEST"
  | .encryptedHello => "ECHCONFIG"

/-- All labels that mean something. -/
def PemLabel.all : List PemLabel :=
  [.certificate, .publicKey, .rsaPrivateKey, .privateKey, .ecPrivateKey, .revocationList,
    .certificateRequest, .encryptedHello]

/-- The label with some text. -/
def PemLabel.ofText? (text : Bytes) : Option PemLabel :=
  PemLabel.all.find? fun l => Utf8.ofString l.text = text

/-- A section of a file. -/
structure PemSection where
  label : PemLabel
  content : Bytes
  deriving DecidableEq, Repr

/-- What can be read of a file. -/
structure Pem where
  sections : List PemSection := []
  /-- Whether a mistake ended the reading. -/
  broken : Bool := false
  deriving DecidableEq, Repr

namespace Pem

/-! ## Lines -/

/-- The lines of a file, which end with a line feed or a carriage return. -/
def lines : Bytes → List Bytes
  | [] => [[]]
  | b :: rest =>
    match lines rest with
    | [] => [[b]]
    | l :: ls => if b = 10 ∨ b = 13 then [] :: l :: ls else (b :: l) :: ls

/-- The start of a line that opens a section. -/
def opening : Bytes := Utf8.ofString "-----BEGIN "

/-- The start of a line that closes a section. -/
def closing : Bytes := Utf8.ofString "-----END "

/-- The sign at both ends of a line that opens or closes a section. -/
def dash : UInt8 := 45

/-- The text of the label in a line that opens a section. The line ends with five dashes, among and
behind which there may be spaces. -/
def openedLabel? (line : Bytes) : Option Bytes :=
  let run := (line.reverse.takeWhile fun b => b = dash || b = 32).reverse
  if run.count dash = 5 then
    some ((line.take (line.length - run.length) ++ run.takeWhile (· ≠ dash)).drop opening.length)
  else none

/-- Whether a line closes the section with some label. Something may follow the dashes. -/
def closes (label line : Bytes) : Bool :=
  (closing ++ label ++ List.replicate 5 dash).isPrefixOf line

/-! ## Sections -/

/-- A section in front of others. -/
def cons (s : PemSection) (p : Pem) : Pem := { p with sections := s :: p.sections }

/-- Reads sections from lines. `label` is that of the section that is open, and `data` are its lines
so far. A line that opens another section keeps these lines. -/
def readLines (label : Option Bytes) (data : Bytes) : List Bytes → Pem
  | [] => { broken := label.isSome }
  | line :: rest =>
    if opening.isPrefixOf line then
      match openedLabel? line with
      | some l => readLines (some l) data rest
      | none => { broken := true }
    else
      match label with
      | none => readLines none data rest
      | some l =>
        if closes l line then
          match PemLabel.ofText? l with
          | none => readLines none [] rest
          | some kind =>
            match Base64.decodeLoose data with
            | some content => cons ⟨kind, content⟩ (readLines none [] rest)
            | none => { broken := true }
        else readLines (some l) (data ++ line) rest

/-- Reads a file. -/
def read (file : Bytes) : Pem := readLines none [] (lines file)

end Pem

end HealthService
