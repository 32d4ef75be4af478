import HealthService.Json.Number
import HealthService.Text.Blank

/-!
# Reading values

The state of a reader is what is left to read. Its steps are shared by all readers of JSON text:
`readHead` tells what value comes next and reads it if it is no list or object, `nextItem` and
`nextKey` go from item to item and from member to member, and `finish` sees that nothing but blanks
follows. `readAny` builds the tree of a value, and `skipValue` passes over a value that nobody asked
for.

Lists and objects may be nested `maxLevels` deep; a reader is told how many levels may still be
opened. Only `skipValue` has no limit.
-/

namespace HealthService.Json

/-- How deeply a document may be nested. -/
def maxLevels : Nat := 127

/-- What is left after blanks. -/
def skipBlank (b : Bytes) : Bytes := b.dropWhile Blank.isJsonByte

/-! ## Values without parts -/

/-- A value that is neither a list nor an object. -/
inductive Scalar where
  | null
  | bool (b : Bool)
  | number (n : Numeral)
  | text (s : String)
  deriving DecidableEq

/-- A scalar in the words of a message. -/
def Scalar.found : Scalar → Found
  | .null => .null
  | .bool b => .bool b
  | .number n => n.found
  | .text s => .text s

/-- A scalar as a value. -/
def Scalar.toJson : Scalar → Json
  | .null => .null
  | .bool b => .bool b
  | .number n => n.toJson
  | .text s => .text s

/-- The rest of a word whose first letter has been read. -/
def readWord : Bytes → Bytes → Except Fault Bytes
  | [], b => .ok b
  | _ :: _, [] => fault .endInValue []
  | w :: ws, c :: rest => if c = w then readWord ws rest else fault .expectedWord rest

/-- What value comes next. -/
inductive Head where
  | scalar (s : Scalar) (rest : Bytes)
  /-- A list; `here` begins with its bracket. -/
  | list (here : Bytes)
  /-- An object; `here` begins with its brace. -/
  | object (here : Bytes)

/-- Reads blanks and, if it has no parts, the value after them. -/
def readHead (b : Bytes) : Except Fault Head :=
  match skipBlank b with
  | [] => fault .endInValue []
  | c :: rest =>
    if c = 0x6E then do
      let rest ← readWord [0x75, 0x6C, 0x6C] rest
      .ok (.scalar .null rest)
    else if c = 0x74 then do
      let rest ← readWord [0x72, 0x75, 0x65] rest
      .ok (.scalar (.bool true) rest)
    else if c = 0x66 then do
      let rest ← readWord [0x61, 0x6C, 0x73, 0x65] rest
      .ok (.scalar (.bool false) rest)
    else if c = 0x2D ∨ isDigit c then do
      let (n, rest) ← readNumber (c :: rest)
      .ok (.scalar (.number n) rest)
    else if c = 0x22 then do
      let (s, rest) ← readText rest
      .ok (.scalar (.text s) rest)
    else if c = 0x5B then .ok (.list (c :: rest))
    else if c = 0x7B then .ok (.object (c :: rest))
    else faultAhead .expectedValue (c :: rest)

/-- The fault of a value of the wrong type. -/
def wrongType {α : Type} (head : Head) (expected : String) : Except Fault α :=
  match head with
  | .scalar s rest => fault (.shape (.wrongType s.found expected)) rest
  | .list here => fault (.shape (.wrongType .list expected)) here
  | .object here => fault (.shape (.wrongType .object expected)) here

/-! ## From item to item -/

/-- What a list or an object goes on with. -/
inductive Next where
  /-- Another item, or another member's key after its quote. -/
  | more (rest : Bytes)
  /-- Its end; `here` begins with the closing bracket or brace. -/
  | close (here : Bytes)

/-- Goes to the next item of a list. -/
def nextItem (first : Bool) (b : Bytes) : Except Fault Next :=
  match skipBlank b with
  | [] => fault .endInList []
  | c :: rest =>
    if c = 0x5D then .ok (.close (c :: rest))
    else if first then .ok (.more (c :: rest))
    else if c = 0x2C then
      match skipBlank rest with
      | [] => fault .endInValue []
      | d :: rest =>
        if d = 0x5D then faultAhead .trailingComma (d :: rest) else .ok (.more (d :: rest))
    else faultAhead .expectedCommaOrBracket (c :: rest)

/-- A key, which has to begin with a quote. -/
def openKey : Bytes → Except Fault Next
  | [] => fault .endInValue []
  | c :: rest =>
    if c = 0x22 then .ok (.more rest)
    else if c = 0x7D then faultAhead .trailingComma (c :: rest)
    else faultAhead .keyNotString (c :: rest)

/-- Goes to the next member of an object. -/
def nextKey (first : Bool) (b : Bytes) : Except Fault Next :=
  match skipBlank b with
  | [] => fault .endInObject []
  | c :: rest =>
    if c = 0x7D then .ok (.close (c :: rest))
    else if first then openKey (c :: rest)
    else if c = 0x2C then openKey (skipBlank rest)
    else faultAhead .expectedCommaOrBrace (c :: rest)

/-- The colon after a key. -/
def readColon (b : Bytes) : Except Fault Bytes :=
  match skipBlank b with
  | [] => fault .endInObject []
  | c :: rest => if c = 0x3A then .ok rest else faultAhead .expectedColon (c :: rest)

/-- The end of a list whose items have all been read. -/
def endList (b : Bytes) : Except Fault Bytes :=
  match skipBlank b with
  | [] => fault .endInList []
  | c :: rest =>
    if c = 0x5D then .ok rest
    else if c = 0x2C then
      match skipBlank rest with
      | [] => fault .trailingCharacters []
      | d :: rest =>
        if d = 0x5D then faultAhead .trailingComma (d :: rest)
        else faultAhead .trailingCharacters (d :: rest)
    else faultAhead .trailingCharacters (c :: rest)

/-- Where the attempt to end a list stops, whether it succeeds or not. -/
def stopOfEndList (b : Bytes) : Bytes :=
  match skipBlank b with
  | [] => []
  | c :: rest =>
    if c = 0x5D then rest else if c = 0x2C then skipBlank rest else c :: rest

/-- Where the attempt to end an object stops, whether it succeeds or not. -/
def stopOfEndObject (b : Bytes) : Bytes :=
  match skipBlank b with
  | [] => []
  | c :: rest => if c = 0x7D then rest else c :: rest

/-- Reads the items of a list up to and including its end, newest first in `acc`; the first list
bounds the items. -/
def readItems {α : Type} (item : Bytes → Except Fault (α × Bytes)) :
    Bytes → List α → Bytes → Except Fault (List α × Bytes)
  | [], _, _ => fault .endInList []
  | _ :: bound, acc, b => do
    match ← nextItem acc.isEmpty b with
    | .close here => .ok (acc.reverse, here.drop 1)
    | .more rest =>
      let (x, rest) ← item rest
      readItems item bound (x :: acc) rest

/-- Reads the members of an object up to and including its end into a state; the first list bounds
the members. -/
def readMembers {σ : Type} (value : String → σ → Bytes → Except Fault (σ × Bytes)) :
    Bytes → Bool → σ → Bytes → Except Fault (σ × Bytes)
  | [], _, _, _ => fault .endInObject []
  | _ :: bound, first, state, b => do
    match ← nextKey first b with
    | .close here => .ok (state, here.drop 1)
    | .more rest =>
      let (key, rest) ← readText rest
      let (state, rest) ← value key state rest
      readMembers value bound false state rest

/-! ## Whole values -/

/-- Reads a value as a tree. -/
def readAny : Nat → Bytes → Except Fault (Json × Bytes)
  | levels, b => do
    match ← readHead b with
    | .scalar s rest => .ok (s.toJson, rest)
    | .list here =>
      match levels with
      | 0 => faultAhead .tooDeep here
      | l + 1 =>
        let (items, rest) ← readItems (readAny l) here [] (here.drop 1)
        .ok (.list items, rest)
    | .object here =>
      match levels with
      | 0 => faultAhead .tooDeep here
      | l + 1 =>
        let member (key : String) (acc : List (String × Json)) (b : Bytes) :
            Except Fault (List (String × Json) × Bytes) := do
          let rest ← readColon b
          let (v, rest) ← readAny l rest
          .ok (insertMember key v acc, rest)
        let (members, rest) ← readMembers member here true [] (here.drop 1)
        .ok (.object members, rest)

/-- Sees that only blanks are left. -/
def finish {α : Type} (r : α × Bytes) : Except Fault α :=
  match skipBlank r.2 with
  | [] => .ok r.1
  | b => faultAhead .trailingCharacters b

/-- The value of a whole document. -/
def ofBytes (b : Bytes) : Except Fault Json := do finish (← readAny maxLevels b)

/-! ## Values nobody asked for -/

/-- Passes over the rest of a string literal; the first list bounds the steps. -/
def skipTextAux : Bytes → Bytes → Except Fault Bytes
  | _, [] => fault .endInString []
  | [], _ :: _ => fault .endInString []
  | _ :: bound, b :: rest =>
    if b = 0x22 then .ok rest
    else if b = 0x5C then
      match rest with
      | [] => fault .endInString []
      | e :: rest =>
        if e = 0x75 then do
          let (_, rest) ← readHex rest
          skipTextAux bound rest
        else if e ∈ [0x22, 0x5C, 0x2F, 0x62, 0x66, 0x6E, 0x72, 0x74] then skipTextAux bound rest
        else fault .invalidEscape rest
    else if b.toNat < 0x20 then fault .controlCharacter (b :: rest)
    else skipTextAux bound rest

/-- Passes over the rest of a string literal. -/
def skipText (b : Bytes) : Except Fault Bytes := skipTextAux b b

/-- Passes over an exponent after its `e`. -/
def skipExponent (b : Bytes) : Except Fault Bytes :=
  let b := match b with
    | 0x2B :: r => r
    | 0x2D :: r => r
    | _ => b
  match b with
  | [] => fault .invalidNumber []
  | d :: rest =>
    if isDigit d then .ok (rest.dropWhile isDigit) else fault .invalidNumber rest

/-- Passes over what may follow the digits of an integer. -/
def skipFraction (b : Bytes) : Except Fault Bytes :=
  match b with
  | [] => .ok []
  | c :: rest =>
    if c = 0x65 ∨ c = 0x45 then skipExponent rest
    else if c = 0x2E then
      let after := rest.dropWhile isDigit
      if after.length = rest.length then faultAhead .invalidNumber rest
      else match after with
        | e :: more => if e = 0x65 ∨ e = 0x45 then skipExponent more else .ok after
        | [] => .ok []
    else .ok b

/-- Passes over a number after its sign. -/
def skipNumber : Bytes → Except Fault Bytes
  | [] => fault .invalidNumber []
  | d :: rest =>
    if d = 0x30 then
      match rest with
      | c :: _ => if isDigit c then faultAhead .invalidNumber rest else skipFraction rest
      | [] => .ok []
    else if isDigit d then skipFraction (rest.dropWhile isDigit)
    else fault .invalidNumber rest

/-- What encloses a skipped value. -/
inductive Frame where
  | list
  | object
  deriving DecidableEq

/-- Passes over a key and its colon. -/
def skipKey (b : Bytes) : Except Fault Bytes :=
  match skipBlank b with
  | [] => fault .endInObject []
  | c :: rest =>
    if c = 0x22 then do readColon (← skipText rest)
    else faultAhead .keyNotString (c :: rest)

/-- Goes on to a value: an object's value comes after its key. -/
def enter (frame : Frame) (b : Bytes) : Except Fault Bytes :=
  match frame with
  | .list => .ok b
  | .object => skipKey b

/-- Passes over a value without parts, or over the opening of a list or an object, which is then the
innermost frame. -/
def skipHead (b : Bytes) : Except Fault (Option Frame × Bytes) :=
  match skipBlank b with
  | [] => fault .endInValue []
  | c :: rest =>
    if c = 0x6E then do .ok (none, ← readWord [0x75, 0x6C, 0x6C] rest)
    else if c = 0x74 then do .ok (none, ← readWord [0x72, 0x75, 0x65] rest)
    else if c = 0x66 then do .ok (none, ← readWord [0x61, 0x6C, 0x73, 0x65] rest)
    else if c = 0x2D then do .ok (none, ← skipNumber rest)
    else if isDigit c then do .ok (none, ← skipNumber (c :: rest))
    else if c = 0x22 then do .ok (none, ← skipText rest)
    else if c = 0x5B then .ok (some .list, rest)
    else if c = 0x7B then .ok (some .object, rest)
    else faultAhead .expectedValue (c :: rest)

/-- Passes over all that the frames hold. A comma may come only after a first value (`comma`); the
first list bounds the steps. -/
def skipFrames : Bytes → Bool → List Frame → Bytes → Except Fault Bytes
  | _, _, [], b => .ok b
  | [], _, _ :: _, b => .ok b
  | _ :: bound, comma, frame :: frames, b =>
    match skipBlank b with
    | [] => fault (if frame = .list then .endInList else .endInObject) []
    | c :: rest =>
      if (c = 0x5D ∧ frame = .list) ∨ (c = 0x7D ∧ frame = .object) then
        skipFrames bound true frames rest
      else if comma ∧ c ≠ 0x2C then
        faultAhead (if frame = .list then .expectedCommaOrBracket else .expectedCommaOrBrace)
          (c :: rest)
      else do
        let rest ← enter frame (if comma then rest else c :: rest)
        match ← skipHead rest with
        | (none, rest) => skipFrames bound true (frame :: frames) rest
        | (some inner, rest) => skipFrames bound false (inner :: frame :: frames) rest

/-- Passes over a value. -/
def skipValue (b : Bytes) : Except Fault Bytes := do
  match ← skipHead b with
  | (none, rest) => .ok rest
  | (some frame, rest) => skipFrames b false [frame] rest

end HealthService.Json
