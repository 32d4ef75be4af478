import HealthService.Net.Address
import HealthService.Yaml.Cursor

/-!
# Scalars

A scalar is a text in one of five styles: plain, in single or in double quotes, or as a block whose
lines are kept or folded. Except in kept blocks a single line end between two pieces is a space, and
of several line ends the first is dropped.
-/

namespace HealthService.Yaml

/-- How a scalar is written, as far as it matters for what it can mean. -/
inductive Style where
  | plain
  | quoted
  /-- A block whose lines are kept. -/
  | literal
  | folded
  deriving DecidableEq, Repr

/-- The blanks and line ends between two pieces of a scalar. -/
structure Gap where
  blanks : List Char := []
  first : List Char := []
  more : List Char := []
  broken : Bool := false

/-- What a gap stands for. -/
def Gap.fold (g : Gap) : List Char :=
  if g.broken then
    if g.first = ['\n'] then (if g.more = [] then [' '] else g.more) else g.first ++ g.more
  else g.blanks

/-- Reads blanks and line ends. Blanks count only before the first line end; `refuses` may forbid
a blank after it. The first number bounds the steps. -/
def readGap (refuses : Cursor → Bool) : Nat → Gap → Cursor → Option (Gap × Cursor)
  | 0, g, c => some (g, c)
  | n + 1, g, c =>
    if c.atBlank then
      if g.broken then
        if refuses c then none else readGap refuses n g (c.skip 1)
      else readGap refuses n { g with blanks := g.blanks ++ c.rest.take 1 } (c.skip 1)
    else if c.atBreak then
      let (e, c) := c.readLine
      if g.broken then readGap refuses n { g with more := g.more ++ e } c
      else readGap refuses n { g with blanks := [], first := e, broken := true } c
    else some (g, c)

/-! ## Quoted scalars -/

/-- The characters that short escapes stand for. -/
def shortEscapes : List (Char × Char) :=
  [('0', '\x00'), ('a', '\x07'), ('b', '\x08'), ('t', '\t'), ('\t', '\t'), ('n', '\n'),
    ('v', '\x0b'), ('f', '\x0c'), ('r', '\r'), ('e', '\x1b'), (' ', ' '), ('"', '"'), ('/', '/'),
    ('\\', '\\'), ('N', '\u0085'), ('_', '\u00a0'), ('L', '\u2028'), ('P', '\u2029')]

/-- How many digits a numeric escape has. -/
def escapeDigits (c : Char) : Option Nat :=
  if c = 'x' then some 2 else if c = 'u' then some 4 else if c = 'U' then some 8 else none

/-- The character of an escape after its backslash. -/
def readEscape (c : Cursor) : Option (Char × Cursor) := do
  let e ← c.at? 0
  match shortEscapes.lookup e with
  | some x => some (x, c.skip 1)
  | none =>
    let width ← escapeDigits e
    let digits := (c.rest.drop 1).take width
    let values ← digits.mapM IpAddress.hex?
    let n := IpAddress.value 16 values
    if values.length < width ∨ (0xD800 ≤ n ∧ n ≤ 0xDFFF) ∨ n > 0x10FFFF then none
    else some (Char.ofNat n, c.skip (1 + width))

/-- The characters up to a blank, a line end, the closing quote or an escaped line end, newest first;
the flag tells of the last. -/
def readQuotedWord (single : Bool) : Nat → List Char → Cursor → Option (List Char × Bool × Cursor)
  | 0, _, _ => none
  | n + 1, acc, c =>
    if c.blankOrEnd 0 then some (acc, false, c)
    else if single && c.holds 0 '\'' && c.holds 1 '\'' then
      readQuotedWord single n ('\'' :: acc) (c.skip 2)
    else if c.holds 0 (if single then '\'' else '"') then some (acc, false, c)
    else if !single && c.holds 0 '\\' then
      if (c.at? 1).any isBreak then some (acc, true, (c.skip 1).skipLine)
      else match readEscape (c.skip 1) with
        | some (x, c) => readQuotedWord single n (x :: acc) c
        | none => none
    else readQuotedWord single n (c.rest.take 1 ++ acc) (c.skip 1)

/-- The rest of a quoted scalar; `acc` holds what was read, newest first. -/
def readQuotedAux (single : Bool) : Nat → List Char → Cursor → Option (List Char × Cursor)
  | 0, _, _ => none
  | n + 1, acc, c =>
    if c.atDocumentMark || c.atEnd then none
    else do
      let (acc, broken, c) ← readQuotedWord single (n + 1) acc c
      if c.holds 0 (if single then '\'' else '"') then some (acc.reverse, c.skip 1)
      else
        let (gap, c) ← readGap (fun _ => false) (n + 1) { broken := broken } c
        readQuotedAux single n (gap.fold.reverse ++ acc) c

/-- A quoted scalar that begins here. -/
def readQuoted (c : Cursor) : Option (List Char × Cursor) :=
  readQuotedAux (c.holds 0 '\'') (c.rest.length + 1) [] (c.skip 1)

/-! ## Plain scalars -/

/-- Whether a plain scalar ends before the character here. -/
def endsPlain (inFlow : Bool) (c : Cursor) : Bool :=
  c.blankOrEnd 0 || (c.holds 0 ':' && c.blankOrEnd 1) ||
    (inFlow && (c.at? 0).any fun x => [',', '[', ']', '\x7b', '\x7d'].contains x)

/-- Whether a colon stands here that may not stand in a collection between brackets. -/
def hasStrayColon (inFlow : Bool) (c : Cursor) : Bool :=
  inFlow && c.holds 0 ':' &&
    (c.at? 1).any fun x => [',', '?', '[', ']', '\x7b', '\x7d'].contains x

/-- The characters up to the end of a piece of a plain scalar, newest first. -/
def readPlainWord (inFlow : Bool) : Nat → List Char → Cursor → Option (List Char × Cursor)
  | 0, _, _ => none
  | n + 1, acc, c =>
    if c.blankOrEnd 0 then some (acc, c)
    else if hasStrayColon inFlow c then none
    else if endsPlain inFlow c then some (acc, c)
    else readPlainWord inFlow n (c.rest.take 1 ++ acc) (c.skip 1)

/-- What reading a plain scalar gives: its text, the place after it, and whether it ended with a line
end. -/
structure Plain where
  text : List Char
  cursor : Cursor
  broken : Bool

/-- The rest of a plain scalar whose lines are indented at least by `indent`. -/
def readPlainAux (inFlow : Bool) (indent : Int) : Nat → List Char → Gap → Cursor → Option Plain
  | 0, _, _, _ => none
  | n + 1, acc, gap, c =>
    let done : Plain := ⟨acc.reverse, c, gap.broken⟩
    if c.atDocumentMark || c.holds 0 '#' then some done
    else do
      let (word, c') ← readPlainWord inFlow (n + 1) [] c
      let (acc, gap) := if word = [] then (acc, gap) else (word ++ gap.fold.reverse ++ acc, {})
      if !(c'.atBlank || c'.atBreak) then some ⟨acc.reverse, c', gap.broken⟩
      else
        let refuses (c : Cursor) : Bool := decide ((c.column : Int) < indent) && c.holds 0 '\t'
        let (gap, c'') ← readGap refuses (n + 1) gap c'
        if !inFlow && decide ((c''.column : Int) < indent) then
          some ⟨acc.reverse, c'', gap.broken⟩
        else readPlainAux inFlow indent n acc gap c''

/-- A plain scalar that begins here. -/
def readPlain (inFlow : Bool) (indent : Int) (c : Cursor) : Option Plain :=
  readPlainAux inFlow indent (c.rest.length + 1) [] {} c

/-! ## Blocks -/

/-- What happens to the line ends at the end of a block. -/
inductive Chomping where
  | strip
  | clip
  | keep
  deriving DecidableEq, Repr

/-- The chomping that a character stands for. -/
def chompingOf (c : Cursor) : Option Chomping :=
  if c.holds 0 '+' then some .keep else if c.holds 0 '-' then some .strip else none

/-- The indentation that a digit stands for; none for zero. -/
def indentOf (c : Cursor) : Option (Option Nat) :=
  match c.at? 0 with
  | some x =>
    if x = '0' then none
    else if '1' ≤ x ∧ x ≤ '9' then some (some (x.toNat - 48))
    else some none
  | none => some none

/-- The header of a block after its mark: chomping, indentation, a comment, and the line end. -/
def readBlockHeader (c : Cursor) : Option (Chomping × Option Nat × Cursor) := do
  let (chomp, c) := match chompingOf c with
    | some k => (some k, c.skip 1)
    | none => (none, c)
  let increment ← indentOf c
  let c := if increment.isSome then c.skip 1 else c
  let (chomp, c) := match chomp, increment.isSome, chompingOf c with
    | none, true, some k => (some k, c.skip 1)
    | k, _, _ => (k, c)
  let c := c.skipWhile isBlank
  let c := if c.holds 0 '#' then c.skipWhile (!isBreak ·) else c
  if c.breakOrEnd 0 then some (chomp.getD .clip, increment, (c.readLine).2) else none

/-- Empty lines before a line of a block; `indent` is not known before the first line. Gives the line
ends, the greatest column seen, and the place of the line. -/
def readBlockBreaks (indent : Option Nat) : Nat → List Char → Nat → Cursor →
    Option (List Char × Nat × Cursor)
  | 0, _, _, _ => none
  | n + 1, breaks, widest, c =>
    let room := match indent with
      | some k => k - c.column
      | none => c.rest.length
    let c := c.skip ((c.rest.take room).takeWhile (· = ' ')).length
    let widest := max widest c.column
    let inside := match indent with
      | some k => decide (c.column < k)
      | none => true
    if inside && c.holds 0 '\t' then none
    else if c.atBreak then
      let (e, c) := c.readLine
      readBlockBreaks indent n (breaks ++ e) widest c
    else some (breaks, widest, c)

/-- What has been read of a block. -/
structure Block where
  text : List Char := []
  /-- The line end after the last line. -/
  lead : List Char := []
  /-- The line ends after that one. -/
  trail : List Char := []
  /-- Whether the last line began with a blank. -/
  blankLine : Bool := false

/-- The text with the line ends before another line. -/
def Block.join (b : Block) (keep blank : Bool) : List Char :=
  if !keep && b.lead = ['\n'] && !b.blankLine && !blank then
    b.text ++ (if b.trail = [] then [' '] else []) ++ b.trail
  else b.text ++ b.lead ++ b.trail

/-- The lines of a block at an indentation. -/
def readBlockLines (keep : Bool) (indent : Nat) : Nat → Block → Cursor → Option (Block × Cursor)
  | 0, _, _ => none
  | n + 1, b, c =>
    if c.column = indent && !c.atEnd then do
      let blank := c.atBlank
      let line := c.rest.takeWhile (!isBreak ·)
      let text := b.join keep blank ++ line
      let (lead, c) := (c.skip line.length).readLine
      let (trail, _, c) ← readBlockBreaks (some indent) (n + 1) [] 0 c
      readBlockLines keep indent n ⟨text, lead, trail, blank⟩ c
    else some (b, c)

/-- A block that begins here inside an indentation. -/
def readBlock (outer : Int) (c : Cursor) : Option (List Char × Cursor) := do
  let keep := c.holds 0 '|'
  let (chomp, increment, c) ← readBlockHeader (c.skip 1)
  let given := increment.map fun k => (max outer 0).toNat + k
  let (trail, widest, c) ← readBlockBreaks given (c.rest.length + 1) [] 0 c
  let indent := given.getD (max (max widest (outer + 1).toNat) 1)
  let (b, c) ← readBlockLines keep indent (c.rest.length + 1) { trail := trail } c
  let text := b.text ++ (if chomp = .strip then [] else b.lead)
    ++ (if chomp = .keep then b.trail else [])
  some (text, c)

end HealthService.Yaml
