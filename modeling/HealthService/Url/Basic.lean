import HealthService.Url.Host

/-!
# URLs

A URL has a scheme and, depending on it, an authority, a path, a query and a fragment. For the
schemes of the web the text is normalised while it is read: slashes, dots in paths, default ports,
escapes.

`Url.parse` reads an absolute URL; `Url.print` writes it in its normal form.
-/

namespace HealthService

/-- A path: segments between slashes, or, for schemes without hierarchy, any text. -/
inductive Url.Path where
  | segments (ss : List String)
  | plain (text : String)
  deriving DecidableEq, Repr

/-- An absolute URL. -/
structure Url where
  scheme : String
  username : String := ""
  password : String := ""
  host : Option Url.Host := none
  port : Option UInt16 := none
  path : Url.Path := .segments []
  query : Option String := none
  fragment : Option String := none
  deriving DecidableEq, Repr

namespace Url

/-! ## What is escaped where -/

/-- Characters escaped in a fragment. -/
def inFragment (c : Char) : Bool := isControl c || [' ', '"', '<', '>', '\x60'].contains c

/-- Characters escaped in a path. -/
def inPath (c : Char) : Bool := inFragment c || ['#', '?', '\x7b', '\x7d'].contains c

/-- Characters escaped in a user name or password. -/
def inUserinfo (c : Char) : Bool :=
  inPath c || ['/', ':', ';', '=', '@', '[', '\\', ']', '^', '|'].contains c

/-- Characters escaped in a query; a quote only for the schemes of the web. -/
def inQuery (special : Bool) (c : Char) : Bool :=
  isControl c || [' ', '"', '#', '<', '>'].contains c || (special && c = '\'')

/-! ## Schemes -/

/-- The schemes of the web with their default ports. -/
def specialSchemes : List (String × Option UInt16) :=
  [("http", some 80), ("https", some 443), ("ws", some 80), ("wss", some 443), ("ftp", some 21),
    ("file", none)]

/-- Whether a scheme is one of the web. -/
def isSpecial (scheme : String) : Bool := (specialSchemes.lookup scheme).isSome

/-- The default port of a scheme. -/
def defaultPort (scheme : String) : Option UInt16 := (specialSchemes.lookup scheme).join

/-- An ASCII letter. -/
def isLetter (c : Char) : Bool := ('a' ≤ c && c ≤ 'z') || ('A' ≤ c && c ≤ 'Z')

/-- A character of a scheme after its first. -/
def isSchemeChar (c : Char) : Bool :=
  isLetter c || ('0' ≤ c && c ≤ '9') || c = '+' || c = '-' || c = '.'

/-- An ASCII letter in lower case. -/
def asciiLower (c : Char) : Char := if 'A' ≤ c ∧ c ≤ 'Z' then Char.ofNat (c.toNat + 32) else c

/-- The scheme in lower case and what follows its colon. -/
def readScheme (s : List Char) : Option (String × List Char) :=
  match s with
  | [] => none
  | c :: _ =>
    if isLetter c then
      match s.dropWhile isSchemeChar with
      | ':' :: rest => some (String.ofList ((s.takeWhile isSchemeChar).map asciiLower), rest)
      | _ => none
    else none

/-! ## Authorities -/

/-- Whether a character ends an authority. -/
def endsAuthority (special : Bool) (c : Char) : Bool :=
  c = '/' || c = '?' || c = '#' || (special && c = '\\')

/-- What stands before and after the last `@`. -/
def splitLastAt (s : List Char) : Option (List Char × List Char) :=
  let tail := (s.reverse.takeWhile (· ≠ '@')).reverse
  if tail.length = s.length then none
  else some (s.take (s.length - tail.length - 1), tail)

/-- User name and password, escaped. -/
def userinfo (s : List Char) : String × String :=
  let enc (t : List Char) : String := String.ofList (Percent.encode inUserinfo t)
  (enc (s.takeWhile (· ≠ ':')), enc ((s.dropWhile (· ≠ ':')).drop 1))

/-- The text of a host and what follows it; a colon in brackets belongs to the host. -/
def splitHost (special : Bool) : Bool → List Char → List Char × List Char
  | _, [] => ([], [])
  | bracket, c :: cs =>
    if (c = ':' && !bracket) || endsAuthority special c then ([], c :: cs)
    else
      let (host, rest) := splitHost special (if c = '[' then true else if c = ']' then false
        else bracket) cs
      (c :: host, rest)

/-- The number of a port; none if there are no digits. -/
def readPort : Option Nat → List Char → Except ParseError (Option Nat × List Char)
  | n, [] => .ok (n, [])
  | n, c :: cs =>
    if '0' ≤ c ∧ c ≤ '9' then
      let next := n.getD 0 * 10 + (c.toNat - 48)
      if next > 65535 then .error .invalidPort else readPort (some next) cs
    else if c = '/' ∨ c = '\\' ∨ c = '?' ∨ c = '#' then .ok (n, c :: cs)
    else .error .invalidPort

/-- A port that is not the default one of the scheme. -/
def portOf (scheme : String) (s : List Char) : Except ParseError (Option UInt16 × List Char) :=
  match s with
  | ':' :: rest => do
    let (n, rest) ← readPort none rest
    let p := n.map UInt16.ofNat
    .ok (if p = defaultPort scheme then none else p, rest)
  | _ => .ok (none, s)

/-! ## Paths -/

/-- The pieces between slashes. -/
def splitSlashes (special : Bool) : List Char → List (List Char)
  | [] => [[]]
  | c :: cs =>
    if c = '/' || (special && c = '\\') then [] :: splitSlashes special cs
    else match splitSlashes special cs with
      | [] => [[c]]
      | p :: ps => (c :: p) :: ps

/-- A segment with escaped points as points. -/
def dots (s : List Char) : List Char :=
  match s with
  | '%' :: '2' :: c :: rest =>
    if c = 'e' ∨ c = 'E' then '.' :: dots rest else '%' :: '2' :: c :: rest
  | '.' :: rest => '.' :: dots rest
  | _ => s

/-- Goes through the pieces of a path: one point stays, two go back, and a piece of points at the
end leaves an empty segment. `done` holds the segments so far, newest first. -/
def resolve : List String → List (List Char) → List String
  | done, [] => done.reverse
  | done, p :: ps =>
    let points := dots p
    if points = ['.', '.'] then
      resolve (if ps = [] then "" :: done.drop 1 else done.drop 1) ps
    else if points = ['.'] then resolve (if ps = [] then "" :: done else done) ps
    else resolve (String.ofList (Percent.encode inPath p) :: done) ps

/-- The segments of a path after its first slash. -/
def segments (special : Bool) (s : List Char) : Path :=
  .segments (resolve [] (splitSlashes special s))

/-! ## Whole URLs -/

/-- Adds query and fragment to a URL. -/
def withTail (u : Url) (s : List Char) : Url :=
  let special := isSpecial u.scheme
  let (query, rest) := match s with
    | '?' :: rest =>
      (some (String.ofList (Percent.encode (inQuery special) (rest.takeWhile (· ≠ '#')))),
        rest.dropWhile (· ≠ '#'))
    | _ => (none, s)
  let fragment := match rest with
    | '#' :: rest => some (String.ofList (Percent.encode inFragment rest))
    | _ => none
  { u with query := query, fragment := fragment }

/-- Whether a character ends a path. -/
def endsPath (c : Char) : Bool := c = '?' || c = '#'

/-- Adds path, query and fragment to a URL with an authority. -/
def withPath (u : Url) (s : List Char) : Url :=
  let special := isSpecial u.scheme
  let path := s.takeWhile (!endsPath ·)
  let path := match path with
    | [] => if special then .segments [""] else .segments []
    | c :: cs => segments special (if c = '/' || (special && c = '\\') then cs else c :: cs)
  ({ u with path := path }).withTail (s.dropWhile (!endsPath ·))

/-- Reads what follows the two slashes of an authority. -/
def parseAuthority (scheme : String) (s : List Char) : Except ParseError Url := do
  let special := isSpecial scheme
  let authority := s.takeWhile (!endsAuthority special ·)
  let after := s.dropWhile (!endsAuthority special ·)
  let (user, hostText) := match splitLastAt authority with
    | none => (none, authority)
    | some (user, hostText) => (some user, hostText)
  if user = some [] ∧ hostText = [] ∧ after ≠ [] then .error .emptyHost
  else
    let (username, password) := userinfo (user.getD [])
    let (name, rest) := splitHost special false (hostText ++ after)
    if special ∧ name = [] then .error .emptyHost
    else
      let host ← if special then Host.parse name else Host.parseOpaque name
      if host = .domain "" ∧ (rest.head? = some ':' ∨ username ≠ "" ∨ password ≠ "") then
        .error .emptyHost
      else
        let (p, rest) ← portOf scheme rest
        let u : Url :=
          { scheme := scheme, username := username, password := password, host := some host
            port := p }
        .ok (u.withPath rest)

/-- Reads a local file's URL after its scheme. -/
def parseFile (s : List Char) : Except ParseError Url :=
  let isSlash (c : Char) : Bool := c = '/' || c = '\\'
  match s with
  | a :: b :: rest =>
    if isSlash a && isSlash b then
      let name := rest.takeWhile (!endsAuthority true ·)
      let after := rest.dropWhile (!endsAuthority true ·)
      let isDrive : Bool := match name with
        | [c, d] => isLetter c && (d = ':' || d = '|')
        | _ => false
      if name = [] then
        .ok (({ scheme := "file", host := some (.domain "") } : Url).withPath after)
      else if isDrive then
        .ok (({ scheme := "file", host := some (.domain "") } : Url).withPath rest)
      else do
        let host ← Host.parse name
        let host := if host = .domain "localhost" then .domain "" else host
        .ok (({ scheme := "file", host := some host } : Url).withPath after)
    else .ok (({ scheme := "file", host := some (.domain "") } : Url).withPath s)
  | _ => .ok (({ scheme := "file", host := some (.domain "") } : Url).withPath s)

/-- Reads a URL after its scheme. -/
def parseAfterScheme (scheme : String) (s : List Char) : Except ParseError Url :=
  if scheme = "file" then parseFile s
  else if isSpecial scheme then
    parseAuthority scheme (s.dropWhile fun c => c = '/' || c = '\\')
  else match s with
    | '/' :: '/' :: rest => parseAuthority scheme rest
    | '/' :: _ => .ok (({ scheme := scheme } : Url).withPath s)
    | _ =>
      let text := s.takeWhile (!endsPath ·)
      .ok (({ scheme := scheme, path := .plain (String.ofList (Percent.encode isControl text)) }
        : Url).withTail (s.dropWhile (!endsPath ·)))

/-- Characters that do not count at the two ends of a text. -/
def isMargin (c : Char) : Bool := c.toNat ≤ 0x20

/-- Without what does not count: controls and blanks at the ends, tabs and line ends anywhere. -/
def clean (s : List Char) : List Char :=
  ((((s.dropWhile isMargin).reverse).dropWhile isMargin).reverse).filter
    fun c => c ≠ '\t' && c ≠ '\n' && c ≠ '\r'

/-- Reads an absolute URL. -/
def parse (s : List Char) : Except ParseError Url :=
  match readScheme (clean s) with
  | none => .error .relative
  | some (scheme, rest) => parseAfterScheme scheme rest

/-! ## Writing -/

/-- The text of a path. -/
def Path.print : Path → List Char
  | .segments ss => ss.flatMap fun s => '/' :: s.toList
  | .plain text => text.toList

/-- User name and password before the host. -/
def printUserinfo (u : Url) : List Char :=
  let password := if u.password = "" then [] else ':' :: u.password.toList
  if u.username = "" ∧ u.password = "" then [] else u.username.toList ++ password ++ ['@']

/-- The authority with its two slashes. -/
def printAuthority (u : Url) : List Char :=
  match u.host with
  | none => []
  | some host =>
    let port := match u.port with
      | none => []
      | some p => ':' :: Decimal.ofNat p.toNat
    '/' :: '/' :: (u.printUserinfo ++ host.print ++ port)

/-- An optional part after its mark. -/
def printOptional (mark : Char) : Option String → List Char
  | none => []
  | some s => mark :: s.toList

/-- The normal form of a URL. -/
def print (u : Url) : List Char :=
  u.scheme.toList ++ ':' :: (u.printAuthority ++ u.path.print ++ printOptional '?' u.query
    ++ printOptional '#' u.fragment)

/-- The normal form of a URL as a string. -/
def toText (u : Url) : String := String.ofList u.print

end Url

end HealthService
