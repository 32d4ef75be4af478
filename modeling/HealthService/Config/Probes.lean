import HealthService.Check.HttpProbe
import HealthService.Config.Basic

/-!
# The probes of a configuration

A configured check becomes a probe if its expected status is a status code.
-/

namespace HealthService

/-- A check whose expected status is no status code. -/
structure ProbeError where
  name : String
  status : Nat
  deriving DecidableEq, Repr

/-- What went wrong, and then its cause. -/
def ProbeError.chain (e : ProbeError) : List String :=
  ["check " ++ Quoted.ofString e.name ++ ": invalid expected_status "
      ++ String.ofList (Decimal.ofNat e.status),
    "invalid status code"]

/-- An error with its cause in words. -/
def ProbeError.message (e : ProbeError) : String := ": ".intercalate e.chain

namespace Config

/-- The probe of a configured check. -/
def Probe.toHttpProbe (p : Probe) : Except ProbeError HttpProbe :=
  match p.expectedStatus with
  | none => .ok ⟨p.name, p.url, none⟩
  | some code =>
    if isStatusCode code.toNat then .ok ⟨p.name, p.url, some code.toNat⟩
    else .error ⟨p.name, code.toNat⟩

/-- The probes of all configured checks in their order, or the first check that does not make one. -/
def Health.probes (h : Health) : Except ProbeError (List HttpProbe) :=
  h.checks.mapM Probe.toHttpProbe

end Config

end HealthService
