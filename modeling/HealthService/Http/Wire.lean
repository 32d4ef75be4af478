import HealthService.Http.Status
import HealthService.Url.Basic

/-!
# What a probe sends and gets

A probe sends a request without a body and looks only at the first line of the reply.
-/

namespace HealthService

/-- The part of a URL that a request names: its path and its query. -/
def Url.target (u : Url) : List Char := u.path.print ++ Url.printOptional '?' u.query

/-- The host that a request names. -/
def Url.authority (u : Url) : List Char :=
  match u.host, u.port with
  | none, _ => []
  | some h, none => h.print
  | some h, some p => h.print ++ ':' :: Decimal.ofNat p.toNat

/-- The port to connect to, if it is known. -/
def Url.effectivePort (u : Url) : Option UInt16 := u.port.or (Url.defaultPort u.scheme)

namespace Wire

/-- The request for a URL. -/
def request (u : Url) : Bytes :=
  Utf8.encode ("GET ".toList ++ u.target ++ " HTTP/1.1\r\nhost: ".toList ++ u.authority
    ++ "\r\naccept: */*\r\nconnection: close\r\n\r\n".toList)

/-- The digits of the status code in the first line of a reply. -/
def statusDigits? (reply : Bytes) : Option Bytes :=
  if (Utf8.ofString "HTTP/1.").isPrefixOf reply && (reply[8]? = some 0x20) then
    some ((reply.drop 9).takeWhile fun b => 0x30 ≤ b.toNat && b.toNat ≤ 0x39)
  else none

/-- The status code of a reply, once so much of it has come that this is known. -/
def status? (reply : Bytes) : Option Nat := do
  let digits ← statusDigits? reply
  let code := digits.foldl (fun n b => n * 10 + (b.toNat - 0x30)) 0
  if digits.length = 3 ∧ isStatusCode code then some code else none

end Wire

end HealthService
