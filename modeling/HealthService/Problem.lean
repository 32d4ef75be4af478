import HealthService.Format.JsonPrinter
import HealthService.Format.JsonReader
import HealthService.Http.Message
import HealthService.Http.Status
import HealthService.Log.Event

/-!
# Problem documents

A problem tells a client in a JSON document why its request failed: a type, a title, a status, a
detail and the instance in which it occurred, which are the standard members, and any number of extensions. No extension
has the name of a standard member; `Problem.withExtension` ignores such a one and logs it.
-/

namespace HealthService

/-- Why a request failed. -/
structure Problem where
  kind : Option String := none
  title : String
  status : UInt16
  detail : Option String := none
  occurrence : Option String := none
  extensions : Json.Members := []

namespace Problem

/-- The names of the standard members. -/
def reservedNames : List String := ["type", "title", "status", "detail", "instance"]

/-- How a problem stands in a document. What is nothing is not written. -/
def format : Format Problem :=
  .record "ProblemDetail"
    (.omitted "type" .text <|
      .required "title" .text <|
      .required "status" .uint16 <|
      .omitted "detail" .text <|
      .omitted "instance" .text .others)
    (fun (kind, title, status, detail, occurrence, extensions) =>
      ⟨kind, title, status, detail, occurrence, extensions⟩)
    (fun p => (p.kind, p.title, p.status, p.detail, p.occurrence, p.extensions))

/-! ## Making problems -/

/-- A problem with a status and a title. -/
def new (status : Nat) (title : String) : Problem :=
  { title := title, status := UInt16.ofNat status }

/-- A problem whose title is the reason phrase of its status. -/
def ofStatus (status : Nat) : Problem :=
  new status ((reasonPhrase? status).getD "Unknown Status")

/-- With another type. -/
def withType (p : Problem) (kind : String) : Problem := { p with kind := some kind }

/-- With another detail. -/
def withDetail (p : Problem) (detail : String) : Problem := { p with detail := some detail }

/-- With another instance. -/
def withInstance (p : Problem) (of : String) : Problem := { p with occurrence := some of }

/-- With one more extension, in place of one of the same name; a standard name is ignored. -/
def withExtension (p : Problem) (key : String) (value : Json) : Problem × List Entry :=
  if reservedNames.contains key then (p, [⟨.reservedExtension key, []⟩])
  else ({ p with extensions := Json.insertMember key value p.extensions }, [])

/-- A problem with the usual title of a status and a detail. -/
def detailed (status : Nat) (detail : String) : Problem := (ofStatus status).withDetail detail

/-- The request itself is wrong. -/
def badRequest : String → Problem := detailed 400

/-- The client has not shown who it is. -/
def unauthorized : String → Problem := detailed 401

/-- The client may not do this. -/
def forbidden : String → Problem := detailed 403

/-- Nothing is there. -/
def notFound : String → Problem := detailed 404

/-- The path does not know the method. -/
def methodNotAllowed : String → Problem := detailed 405

/-- The request contradicts the state of things. -/
def conflict : String → Problem := detailed 409

/-- The body is longer than it may be. -/
def payloadTooLarge : String → Problem := detailed 413

/-- The request is well formed but makes no sense. -/
def unprocessableEntity : String → Problem := detailed 422

/-- The service failed. -/
def internalServerError : String → Problem := detailed 500

/-- The service cannot answer now. -/
def serviceUnavailable : String → Problem := detailed 503

/-! ## Steps -/

/-- A change of a problem. -/
inductive Step where
  | type (uri : String)
  | detail (text : String)
  | occurrence (uri : String)
  | extension (key : String) (value : Json)

/-- The problem after a step, and what the step logs. -/
def apply (p : Problem) : Step → Problem × List Entry
  | .type uri => (p.withType uri, [])
  | .detail text => (p.withDetail text, [])
  | .occurrence uri => (p.withInstance uri, [])
  | .extension key value => p.withExtension key value

/-! ## Answering with a problem -/

/-- The status code of the response: the problem's own if it is one, else 500. -/
def statusCode (p : Problem) : Nat := if isStatusCode p.status.toNat then p.status.toNat else 500

/-- The content type of problem documents. -/
def contentType : String := "application/problem+json"

/-- The response that carries a problem. -/
def toResponse (p : Problem) : Response where
  status := p.statusCode
  headers := [("content-type", Utf8.ofString contentType)]
  body := Utf8.encode (format.printJson p ++ ['\n'])

end Problem

end HealthService
