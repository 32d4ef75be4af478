import HealthService.Decimal.Shortest

/-!
# Errors of the operating system

What the operating system may answer to those who open files or connections.
-/

namespace HealthService

/-- An error of the operating system. -/
inductive OsError where
  | missing
  | directory
  | addressInUse
  | networkUnreachable
  | connectionRefused
  deriving DecidableEq, Repr

namespace OsError

/-- The number of an error. -/
def code : OsError → Nat
  | .missing => 2
  | .directory => 21
  | .addressInUse => 98
  | .networkUnreachable => 101
  | .connectionRefused => 111

/-- The text of an error. -/
def text : OsError → String
  | .missing => "No such file or directory"
  | .directory => "Is a directory"
  | .addressInUse => "Address already in use"
  | .networkUnreachable => "Network is unreachable"
  | .connectionRefused => "Connection refused"

/-- An error in words. -/
def message (e : OsError) : String :=
  e.text ++ " (os error " ++ String.ofList (Decimal.ofNat e.code) ++ ")"

end OsError

end HealthService
