import HealthService.Http.Message
import HealthService.Log.Event

/-!
# Trace context

A trace follows a request through several services. It travels in two headers: `traceparent` has a
version, the id of the trace, the id of the caller's span and flags; `tracestate` is carried along
as it is.

`TraceContext.parse` accepts exactly the well-formed `traceparent` texts of version `00` and
`TraceContext.traceparent` writes them; `TraceContext.ofHeaders` continues the trace of a request or
starts a new one.
-/

namespace HealthService

/-- The place of a request in a trace. -/
structure TraceContext where
  version : String
  traceId : String
  spanId : String
  traceFlags : String
  traceState : Option String := none
  deriving DecidableEq, Repr

/-- Why a text is no `traceparent`. -/
inductive TraceparentError where
  | parts (count : Nat)
  | version (version : String)
  | field (name reason : String)
  deriving DecidableEq, Repr

/-- An error in words. -/
def TraceparentError.message : TraceparentError → String
  | .parts count => "expected 4 parts, got " ++ String.ofList (Decimal.ofNat count)
  | .version v => "unsupported version " ++ Quoted.ofString v
  | .field name reason => "invalid " ++ name ++ ": " ++ reason

namespace TraceContext

/-! ## Reading and writing -/

/-- The pieces of a text between dashes. -/
def splitDashes : List Char → List (List Char)
  | [] => [[]]
  | c :: cs =>
    if c = '-' then [] :: splitDashes cs
    else match splitDashes cs with
      | [] => [[c]]
      | p :: ps => (c :: p) :: ps

/-- A lower-case hexadecimal digit. -/
def isHex (c : Char) : Bool := ('0' ≤ c && c ≤ '9') || ('a' ≤ c && c ≤ 'f')

/-- Checks one part: its length in bytes, its digits, and that it is not all zeros. -/
def checkField (name : String) (length : Nat) (zeroAllowed : Bool) (value : List Char) :
    Except TraceparentError Unit :=
  if (Utf8.encode value).length ≠ length then .error (.field name "wrong length")
  else if !value.all isHex then .error (.field name "not lowercase hex")
  else if !zeroAllowed && value.all (· = '0') then .error (.field name "all zeros")
  else .ok ()

/-- Reads a `traceparent`. -/
def parse (text : String) : Except TraceparentError TraceContext :=
  match splitDashes text.toList with
  | [version, traceId, spanId, flags] => do
    if version ≠ ['0', '0'] then .error (.version (String.ofList version))
    else
      checkField "trace-id" 32 false traceId
      checkField "span-id" 16 false spanId
      checkField "trace-flags" 2 true flags
      .ok { version := String.ofList version, traceId := String.ofList traceId
            spanId := String.ofList spanId, traceFlags := String.ofList flags }
  | parts => .error (.parts parts.length)

/-- Writes a `traceparent`. -/
def traceparent (t : TraceContext) : String :=
  t.version ++ "-" ++ t.traceId ++ "-" ++ t.spanId ++ "-" ++ t.traceFlags

/-- What is known of all events in the span of a trace context. -/
def span (t : TraceContext) : Span := ⟨t.traceId, t.spanId, t.traceFlags⟩

/-! ## New ids -/

/-- What chance decides about a new trace context: the bits of a trace id, of which some are
overwritten, and the bits of a span id, which are never all zero. -/
structure Draw where
  high : UInt64
  low : UInt64
  span : UInt64
  span_ne_zero : span ≠ 0

/-- What chance decides when it brings two words for a trace id and then words for a span id. A span id
must not be zero, so zeros are drawn again: nothing is decided before a word that is not zero. -/
def Draw.ofDrawn? (high low : UInt64) : List UInt64 → Option Draw
  | [] => none
  | span :: words => if h : span = 0 then ofDrawn? high low words else some ⟨high, low, span, h⟩

/-- What chance decides when it brings three words, and one instead of a zero. -/
def Draw.ofWords (high low span : UInt64) : Draw :=
  (ofDrawn? high low [span]).getD ⟨high, low, 1, by decide⟩

/-- The last `width` hexadecimal digits of a number. -/
def hex : Nat → Nat → List Char
  | 0, _ => []
  | width + 1, n => hex width (n / 16) ++ [Nat.digitChar (n % 16)]

/-- A trace id has the form of a random UUID of version 4. -/
def Draw.traceId (d : Draw) : String :=
  let high := d.high.toNat / 65536 * 65536 + 0x4000 + d.high.toNat % 4096
  let low := 0x8000000000000000 + d.low.toNat % 0x4000000000000000
  String.ofList (hex 16 high ++ hex 16 low)

/-- A span id is any sixteen digits that are not all zero. -/
def Draw.spanId (d : Draw) : String := String.ofList (hex 16 d.span.toNat)

/-- A new trace, which is sampled. -/
def generate (d : Draw) : TraceContext where
  version := "00"
  traceId := d.traceId
  spanId := d.spanId
  traceFlags := "01"

/-! ## The trace of a request -/

/-- The trace that the headers speak of, and what is logged when they speak of none. -/
def parent (headers : Headers) : Option TraceContext × List Entry :=
  match headers.firstText? "traceparent" with
  | none => (none, [])
  | some text =>
    match parse text with
    | .ok t => (some t, [])
    | .error e => (none, [⟨.invalidTraceparent e.message, []⟩])

/-- The trace state that the headers carry. -/
def stateOf (headers : Headers) : Option String :=
  (headers.firstText? "tracestate").filter (· ≠ "")

/-- Continues the trace of a request in a span of its own, or starts a new trace. -/
def ofHeaders (headers : Headers) (d : Draw) : TraceContext × List Entry :=
  match parent headers with
  | (some t, entries) => ({ t with spanId := d.spanId, traceState := stateOf headers }, entries)
  | (none, entries) => (generate d, entries)

end TraceContext

end HealthService
