import HealthService.Json.Printer
import HealthService.Log.Event
import HealthService.Text.Quoted
import HealthService.Time.Calendar

/-!
# Log lines

An entry becomes a line of text for people, or a JSON document for programs. Both begin with the time.
-/

namespace HealthService

namespace FieldValue

/-- The value of a field in a document. -/
def toJson : FieldValue → Json
  | .text s => .text s
  | .number n => .ofNat n
  | .flag b => .bool b
  | .elapsed d => .text d.describe

/-- The value of a field in a line for people. -/
def toText : FieldValue → String
  | .text s => Quoted.ofString s
  | .number n => String.ofList (Decimal.ofNat n)
  | .flag b => if b then "true" else "false"
  | .elapsed d => d.describe

end FieldValue

/-- The fields of a span. -/
def Span.fields (s : Span) : List (String × FieldValue) :=
  [("trace_id", .text s.traceId), ("span_id", .text s.spanId), ("trace_flags", .text s.traceFlags)]

/-- The name of a span. -/
def Span.name (_ : Span) : String := "request"

namespace Entry

/-- A span in a document. -/
def ofSpan (s : Span) : Json :=
  .ofMembers (("name", .text s.name) :: s.fields.map fun f => (f.1, f.2.toJson))

/-- An entry as a document. -/
def toJsonLine (e : Entry) (time : DateTime) (source : String) : String :=
  let spans := match e.spans.getLast? with
    | none => []
    | some s => [("span", ofSpan s), ("spans", .list (e.spans.map ofSpan))]
  (Json.ofMembers ([
    ("timestamp", .text (String.ofList time.print)),
    ("level", .text e.event.level.name),
    ("fields", .ofMembers (("message", .text e.event.message)
      :: e.event.fields.map fun f => (f.1, f.2.toJson))),
    ("target", .text source)] ++ spans)).toText

/-- Fields with blanks between them. -/
def fieldText (fs : List (String × FieldValue)) : String :=
  " ".intercalate (fs.map fun f => f.1 ++ "=" ++ f.2.toText)

/-- A span in a line for people. -/
def spanText (s : Span) : String := s.name ++ "\x7b" ++ fieldText s.fields ++ "\x7d: "

/-- An entry as a line for people. -/
def toTextLine (e : Entry) (time : DateTime) (source : String) : String :=
  let level := e.event.level.name
  let fields := if e.event.fields.isEmpty then "" else " " ++ fieldText e.event.fields
  String.ofList time.print ++ "  " ++ String.ofList (List.replicate (5 - level.length) ' ') ++ level
    ++ " " ++ String.join (e.spans.map spanText) ++ source ++ ": " ++ e.event.message ++ fields

end Entry

end HealthService
