import HealthService.Check.Behaviour
import HealthService.Http.Status
import HealthService.OsError
import HealthService.Url.Basic

/-!
# HTTP probes

A probe asks another service for a URL and looks at the status of the reply: it has to be the
expected one or, if none is expected, any that means success. The probe does not wait for a reply
when its context ends.
-/

namespace HealthService

/-- Why there is no reply. -/
inductive TransportError where
  | connect (url : String) (reason : OsError)
  /-- The connection was there, but no reply came over it. -/
  | lost (url : String) (reason : String)
  deriving DecidableEq, Repr

/-- An error in words. -/
def TransportError.message : TransportError → String
  | .connect url reason =>
    "error sending request for url (" ++ url ++ "): error trying to connect: tcp connect error: "
      ++ reason.message
  | .lost url reason => "error sending request for url (" ++ url ++ "): " ++ reason

/-- A probe of another service. -/
structure HttpProbe where
  name : String
  url : Url
  expected : Option Nat := none
  deriving DecidableEq, Repr

namespace HttpProbe

/-- What comes of a request: a status code, or none. -/
abbrev Reply := Except TransportError Nat

/-- Whether a status code is the right one. -/
def accepts (p : HttpProbe) (code : Nat) : Bool :=
  match p.expected with
  | some expected => code = expected
  | none => 200 ≤ code && code ≤ 299

/-- A status code with its phrase. -/
def describe (code : Nat) : String :=
  String.ofList (Decimal.ofNat code) ++ " " ++ (reasonPhrase? code).getD "<unknown status code>"

/-- What the probe reports of a reply. -/
def report (p : HttpProbe) : Reply → CheckOutcome
  | .ok code =>
    if p.accepts code then ⟨.ok, some ("HTTP " ++ describe code)⟩
    else ⟨.error, some ("unexpected HTTP " ++ describe code)⟩
  | .error e => ⟨.error, some e.message⟩

/-- What the probe does when its context ends. -/
def stop (e : ContextError) : Behaviour := .finish ⟨.error, some e.message⟩

/-- What the probe does when a reply comes after some time, or never. If the context ends at the very
time of the reply, chance decides which of them the probe notices. -/
def behaviour (p : HttpProbe) (answer : Option (Duration × Reply)) (replyWins : Bool) : Behaviour :=
  match answer with
  | some (after, reply) => .hearOrEnd after replyWins (.finish (p.report reply)) stop
  | none => .race none replyWins (.finish ⟨.error, none⟩) stop

/-- The checker of a probe. -/
def checker (p : HttpProbe) (answer : Option (Duration × Reply)) (replyWins : Bool) : Checker :=
  ⟨p.name, p.behaviour answer replyWins⟩

end HttpProbe

end HealthService
