import HealthService.Text.Percent

/-!
# Form data

Form data are pairs `key=value` with `&` between them. In keys and values a plus sign stands for a
space and escapes stand for bytes; bytes that are no UTF-8 are replaced. Empty pieces are no pairs,
and a piece without `=` has the empty value.
-/

namespace HealthService.Form

/-- `split` with the piece at hand, newest byte first, and the finished pieces, newest first. -/
def splitAux (separator : UInt8) : Bytes → List Bytes → Bytes → List Bytes
  | piece, done, [] => (piece.reverse :: done).reverse
  | piece, done, b :: rest =>
    if b = separator then splitAux separator [] (piece.reverse :: done) rest
    else splitAux separator (b :: piece) done rest

/-- The pieces between separators. -/
def split (separator : UInt8) (b : Bytes) : List Bytes := splitAux separator [] [] b

/-- The text of a key or a value. -/
def decodePart (b : Bytes) : String :=
  String.ofList (Utf8.decodeLossy (Percent.decode (b.map fun c => if c = 0x2B then 0x20 else c)))

/-- The key and the value of a piece. -/
def pairOf (piece : Bytes) : String × String :=
  (decodePart (piece.takeWhile (· ≠ 0x3D)), decodePart ((piece.dropWhile (· ≠ 0x3D)).drop 1))

/-- The pairs of form data. -/
def pairs (b : Bytes) : List (String × String) :=
  ((split 0x26 b).filter (!·.isEmpty)).map pairOf

end HealthService.Form
