import HealthService.Text.Utf8
import HealthService.Yaml.Scalar

/-!
# Tokens

The tokens of a YAML text: marks, names and scalars, and the beginnings and ends of blocks, which
stand in no character but follow from the indentation.

That a scalar is the key of a mapping shows only at the colon after it. Every place where a key may
begin is therefore remembered (`SimpleKey`), and at the colon the tokens that begin a key, and
perhaps a mapping, are put in at that place. A remembered place is given up at the end of its line
or 1024 characters later.
-/

namespace HealthService.Yaml

/-- What a text consists of. -/
inductive Token where
  | versionDirective (major minor : Nat)
  | tagDirective (handle start : List Char)
  | documentStart
  | documentEnd
  | blockSequenceStart
  | blockMappingStart
  | blockEnd
  | flowSequenceStart
  | flowSequenceEnd
  | flowMappingStart
  | flowMappingEnd
  | blockEntry
  | flowEntry
  | key
  | value
  | alias (name : List Char)
  | anchor (name : List Char)
  | tag (handle suffix : List Char)
  | scalar (style : Style) (text : List Char)
  deriving DecidableEq, Repr

/-- A place where a key may have begun. -/
structure SimpleKey where
  /-- Whether nothing else can stand there. -/
  required : Bool
  /-- How many tokens stand before it. -/
  number : Nat
  index : Nat
  line : Nat
  column : Nat

/-- What has been read, and what has to be remembered of it. -/
structure Scan where
  cursor : Cursor
  /-- The tokens so far, newest first. -/
  tokens : List Token := []
  /-- How many tokens there are so far. -/
  count : Nat := 0
  flowLevel : Nat := 0
  indent : Int := -1
  indents : List Int := []
  /-- Whether a key may begin here. -/
  allowed : Bool := true
  /-- The remembered places, one for each open bracket and one outside, innermost first. -/
  keys : List (Option SimpleKey) := [none]

namespace Scan

/-! ## Remembered places -/

/-- With one more token at the end. -/
def emit (s : Scan) (t : Token) : Scan := { s with tokens := t :: s.tokens, count := s.count + 1 }

/-- With one more token after the first `number` ones. -/
def insert (s : Scan) (number : Nat) (t : Token) : Scan :=
  let newer := s.count - number
  { s with tokens := s.tokens.take newer ++ t :: s.tokens.drop newer, count := s.count + 1 }

/-- Whether a place is too far back for a key. -/
def isStale (s : Scan) (k : SimpleKey) : Bool :=
  k.line < s.cursor.line || k.index + 1024 < s.cursor.index

/-- Gives a place up if it is too far back; none if it was required. -/
def refresh (s : Scan) (k : Option SimpleKey) : Option (Option SimpleKey) :=
  match k with
  | none => some none
  | some k => if s.isStale k then (if k.required then none else some none) else some (some k)

/-- Gives up the places that are too far back. -/
def dropStale (s : Scan) : Option Scan := do
  let keys ← s.keys.mapM s.refresh
  some { s with keys := keys }

/-- Gives up the innermost place; none if it was required. -/
def dropKey (s : Scan) : Option Scan :=
  match s.keys with
  | some k :: rest => if k.required then none else some { s with keys := none :: rest }
  | _ => some s

/-- Remembers this place if a key may begin here. -/
def saveKey (s : Scan) : Option Scan :=
  if s.allowed then do
    let s ← s.dropKey
    let c := s.cursor
    let k : SimpleKey :=
      { required := s.flowLevel = 0 && s.indent = (c.column : Int), number := s.count
        index := c.index, line := c.line, column := c.column }
    some { s with keys := some k :: s.keys.drop 1 }
  else some s

/-! ## Indentation -/

/-- Begins a block at a column if it is indented further than the one around it. -/
def openBlock (s : Scan) (column : Nat) (number : Nat) (t : Token) : Scan :=
  if s.flowLevel = 0 && s.indent < (column : Int) then
    ({ s with indents := s.indent :: s.indents, indent := column }).insert number t
  else s

/-- `closeBlocks` over the indentations around the current one. -/
def closeBlocksAux (column : Int) : List Int → Scan → Scan
  | [], s => s
  | i :: is, s =>
    if s.indent > column then
      closeBlocksAux column is { s.emit .blockEnd with indent := i, indents := is }
    else s

/-- Ends the blocks that are indented further than a column. -/
def closeBlocks (s : Scan) (column : Int) : Scan :=
  if s.flowLevel = 0 then closeBlocksAux column s.indents s else s

/-! ## Names -/

/-- The name after `&` or `*`. -/
def readName (c : Cursor) : Option (List Char × Cursor) :=
  let name := c.rest.takeWhile isWord
  let c := c.skip name.length
  if name = [] then none
  else if c.blankOrEnd 0 || (c.at? 0).any fun x =>
      ['?', ':', ',', ']', '\x7d', '%', '@', '\x60'].contains x then some (name, c)
  else none

/-- Whether a character may stand in a tag as it is; commas and brackets only in angle brackets. -/
def isTagChar (verbatim : Bool) (x : Char) : Bool :=
  isWord x || [';', '/', '?', ':', '@', '&', '=', '+', '$', '.', '!', '~', '*', '\'', '(',
    ')'].contains x || (verbatim && [',', '[', ']'].contains x)

/-- The bytes that escapes at the head stand for, and how many escapes there are. -/
def readTagEscapes : Nat → List Char → Option (Bytes × Nat)
  | 0, _ => some ([], 0)
  | n + 1, s =>
    match s with
    | '%' :: a :: b :: rest =>
      match IpAddress.hex? a, IpAddress.hex? b with
      | some x, some y => do
        let (bs, k) ← readTagEscapes n rest
        some (UInt8.ofNat (x * 16 + y) :: bs, k + 1)
      | _, _ => none
    | '%' :: _ => none
    | _ => some ([], 0)

/-- The characters of a tag, newest first. -/
def readTagChars (verbatim : Bool) : Nat → List Char → Cursor → Option (List Char × Cursor)
  | 0, _, _ => none
  | n + 1, acc, c =>
    match c.at? 0 with
    | some x =>
      if isTagChar verbatim x then readTagChars verbatim n (x :: acc) (c.skip 1)
      else if x = '%' then do
        let (bytes, k) ← readTagEscapes c.rest.length c.rest
        let text ← Utf8.decode? bytes
        readTagChars verbatim n (text.reverse ++ acc) (c.skip (3 * k))
      else some (acc, c)
    | none => some (acc, c)

/-- The rest of a tag after some characters that belong to it. Either part may be empty, but not
both. -/
def readTagText (verbatim : Bool) (head : List Char) (c : Cursor) :
    Option (List Char × Cursor) := do
  let (acc, c) ← readTagChars verbatim (c.rest.length + 1) [] c
  if head = [] ∧ acc = [] then none else some (head.drop 1 ++ acc.reverse, c)

/-- A handle: `!`, `!!` or `!name!`. Without a second mark the characters may belong to the rest of
the tag. -/
def readHandle (c : Cursor) : Option (List Char × Cursor) :=
  if c.holds 0 '!' then
    let name := (c.rest.drop 1).takeWhile isWord
    let c := c.skip (1 + name.length)
    if c.holds 0 '!' then some ('!' :: name ++ ['!'], c.skip 1) else some ('!' :: name, c)
  else none

/-- Whether a handle is complete. -/
def isHandle (h : List Char) : Bool := h.length ≥ 2 && h.getLast? = some '!'

/-- A tag: handle and suffix. -/
def readTag (c : Cursor) : Option (List Char × List Char × Cursor) :=
  if c.holds 1 '<' then do
    let (suffix, c) ← readTagText true [] (c.skip 2)
    if c.holds 0 '>' then some ([], suffix, c.skip 1) else none
  else do
    let (handle, c) ← readHandle c
    if isHandle handle then
      let (suffix, c) ← readTagText false [] c
      some (handle, suffix, c)
    else
      let (suffix, c) ← readTagText false handle c
      if suffix = [] then some ([], ['!'], c) else some (['!'], suffix, c)

/-! ## Directives -/

/-- A number of at most nine digits. -/
def readVersionNumber (c : Cursor) : Option (Nat × Cursor) :=
  let ds := c.rest.takeWhile fun x => '0' ≤ x && x ≤ '9'
  if ds = [] ∨ ds.length > 9 then none
  else some (ds.foldl (fun n d => n * 10 + (d.toNat - 48)) 0, c.skip ds.length)

/-- The version after `%YAML`. -/
def readVersion (c : Cursor) : Option (Token × Cursor) := do
  let (major, c) ← readVersionNumber (c.skipWhile isBlank)
  if c.holds 0 '.' then
    let (minor, c) ← readVersionNumber (c.skip 1)
    some (.versionDirective major minor, c)
  else none

/-- The handle and what it stands for after `%TAG`. -/
def readTagDirective (c : Cursor) : Option (Token × Cursor) := do
  let (handle, c) ← readHandle (c.skipWhile isBlank)
  if (handle = ['!'] || isHandle handle) && c.atBlank then
    let (start, c) ← readTagText true [] (c.skipWhile isBlank)
    if c.blankOrEnd 0 then some (.tagDirective handle start, c) else none
  else none

/-- A directive and its line end. -/
def readDirective (c : Cursor) : Option (Token × Cursor) := do
  let name := (c.rest.drop 1).takeWhile isWord
  let c := c.skip (1 + name.length)
  if !c.blankOrEnd 0 then none
  else
    let (t, c) ← if name = ['Y', 'A', 'M', 'L'] then readVersion c
      else if name = ['T', 'A', 'G'] then readTagDirective c
      else none
    let c := c.skipWhile isBlank
    let c := if c.holds 0 '#' then c.skipWhile (!isBreak ·) else c
    if c.breakOrEnd 0 then some (t, (c.readLine).2) else none

/-! ## From token to token -/

/-- Goes over blanks, comments and line ends. Outside brackets a tab may not stand where a key could
begin. The number bounds the steps. -/
def toNext : Nat → Scan → Scan
  | 0, s => s
  | n + 1, s =>
    let c := s.cursor
    let c := if c.column = 0 && c.holds 0 '\uFEFF' then c.skip 1 else c
    let tabs := s.flowLevel > 0 || !s.allowed
    let c := c.skipWhile fun x => x = ' ' || (tabs && x = '\t')
    let c := if c.holds 0 '#' then c.skipWhile (!isBreak ·) else c
    if c.atBreak then
      toNext n { s with cursor := c.skipLine, allowed := s.allowed || s.flowLevel = 0 }
    else { s with cursor := c }

/-- Ends all blocks, and no key may begin. -/
def reset (s : Scan) : Option Scan := do
  let s ← (s.closeBlocks (-1)).dropKey
  some { s with allowed := false }

/-- A token that no key begins with and that takes so many characters. -/
def mark (s : Scan) (t : Token) (width : Nat) : Scan :=
  ({ s with cursor := s.cursor.skip width }).emit t

/-- An opening bracket. -/
def openFlow (s : Scan) (t : Token) : Option Scan := do
  let s ← s.saveKey
  some (({ s with keys := none :: s.keys, flowLevel := s.flowLevel + 1, allowed := true }).mark t 1)

/-- A closing bracket. -/
def closeFlow (s : Scan) (t : Token) : Option Scan := do
  let s ← s.dropKey
  let keys := if s.flowLevel > 0 then s.keys.drop 1 else s.keys
  some (({ s with keys := keys, flowLevel := s.flowLevel - 1, allowed := false }).mark t 1)

/-- A comma. -/
def flowEntry (s : Scan) : Option Scan := do
  let s ← s.dropKey
  some (({ s with allowed := true }).mark .flowEntry 1)

/-- A dash before an item. -/
def blockEntry (s : Scan) : Option Scan := do
  if s.flowLevel = 0 && !s.allowed then none
  else
    let s := s.openBlock s.cursor.column s.count .blockSequenceStart
    let s ← s.dropKey
    some (({ s with allowed := true }).mark .blockEntry 1)

/-- A question mark before a key. -/
def explicitKey (s : Scan) : Option Scan := do
  if s.flowLevel = 0 && !s.allowed then none
  else
    let s := s.openBlock s.cursor.column s.count .blockMappingStart
    let s ← s.dropKey
    some (({ s with allowed := s.flowLevel = 0 }).mark .key 1)

/-- A colon before a value. -/
def value (s : Scan) : Option Scan :=
  match s.keys with
  | some k :: rest =>
    let s := (s.insert k.number .key).openBlock k.column k.number .blockMappingStart
    some (({ s with keys := none :: rest, allowed := false }).mark .value 1)
  | _ =>
    if s.flowLevel = 0 && !s.allowed then none
    else
      let s := s.openBlock s.cursor.column s.count .blockMappingStart
      some (({ s with allowed := s.flowLevel = 0 }).mark .value 1)

/-- A name, a tag or a scalar that may be a key. -/
def item (s : Scan) (read : Cursor → Option (Token × Cursor)) : Option Scan := do
  let s ← s.saveKey
  let (t, c) ← read s.cursor
  some (({ s with cursor := c, allowed := false }).emit t)

/-- A plain scalar; after its line a key may begin. -/
def plain (s : Scan) : Option Scan := do
  let s ← s.saveKey
  let p ← readPlain (s.flowLevel > 0) (s.indent + 1) s.cursor
  some (({ s with cursor := p.cursor, allowed := p.broken }).emit (.scalar .plain p.text))

/-- A block scalar. -/
def block (s : Scan) : Option Scan := do
  let s ← s.dropKey
  let style := if s.cursor.holds 0 '|' then Style.literal else .folded
  let (text, c) ← readBlock s.indent s.cursor
  some (({ s with cursor := c, allowed := true }).emit (.scalar style text))

/-- Whether a plain scalar may begin here. -/
def startsPlain (s : Scan) : Bool :=
  let c := s.cursor
  match c.at? 0 with
  | none => false
  | some x =>
    if x = '-' then !((c.at? 1).any isBlank)
    else if x = '?' ∨ x = ':' then s.flowLevel = 0 && !c.blankOrEnd 1
    else !([',', '[', ']', '\x7b', '\x7d', '#', '&', '*', '!', '|', '>', '\'', '"', '%', '@',
      '\x60'].contains x) && !isBlank x && !isBreak x

/-- Reads the token that begins here. -/
def token (s : Scan) : Option Scan :=
  let c := s.cursor
  let inFlow : Bool := s.flowLevel > 0
  if c.column = 0 && c.holds 0 '%' then do
    let s ← s.reset
    let (t, c) ← readDirective s.cursor
    some (({ s with cursor := c }).emit t)
  else if c.atMark '-' then do some ((← s.reset).mark .documentStart 3)
  else if c.atMark '.' then do some ((← s.reset).mark .documentEnd 3)
  else if c.holds 0 '[' then s.openFlow .flowSequenceStart
  else if c.holds 0 '\x7b' then s.openFlow .flowMappingStart
  else if c.holds 0 ']' then s.closeFlow .flowSequenceEnd
  else if c.holds 0 '\x7d' then s.closeFlow .flowMappingEnd
  else if c.holds 0 ',' then s.flowEntry
  else if c.holds 0 '-' && c.blankOrEnd 1 then s.blockEntry
  else if c.holds 0 '?' && (inFlow || c.blankOrEnd 1) then s.explicitKey
  else if c.holds 0 ':' && (inFlow || c.blankOrEnd 1) then s.value
  else if c.holds 0 '*' then s.item fun c => do
    let (name, c) ← readName (c.skip 1)
    some (.alias name, c)
  else if c.holds 0 '&' then s.item fun c => do
    let (name, c) ← readName (c.skip 1)
    some (.anchor name, c)
  else if c.holds 0 '!' then s.item fun c => do
    let (handle, suffix, c) ← readTag c
    if c.blankOrEnd 0 || (inFlow && c.holds 0 ',') then some (.tag handle suffix, c) else none
  else if !inFlow && (c.holds 0 '|' || c.holds 0 '>') then s.block
  else if c.holds 0 '\'' || c.holds 0 '"' then s.item fun c => do
    let (text, c) ← readQuoted c
    some (.scalar .quoted text, c)
  else if s.startsPlain then s.plain
  else none

/-- Reads all tokens; the number bounds them, and with them the lines that are left. -/
def run : Nat → Scan → Option Scan
  | 0, _ => none
  | n + 1, s => do
    let s := toNext (n + 1) s
    let s ← s.dropStale
    let s := s.closeBlocks s.cursor.column
    if s.cursor.atEnd then
      let s ← (s.closeBlocks (-1)).dropKey
      some s
    else run n (← s.token)

end Scan

/-- The tokens of a text; none if it has characters or pieces that no text has. -/
def Token.ofText (text : List Char) : Option (List Token) :=
  let text := if text.head? = some '\uFEFF' then text.drop 1 else text
  if text.all isAllowed then do
    let s ← Scan.run (text.length + 1) { cursor := { rest := text } }
    some s.tokens.reverse
  else none

end HealthService.Yaml
