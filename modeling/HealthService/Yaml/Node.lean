import HealthService.Yaml.Token

/-!
# Nodes

The tokens of a YAML text form nodes: scalars, sequences and mappings, each perhaps with a tag, and
aliases of nodes that have an anchor. A text has to hold at most one document; `Document.ofText`
gives its node together with the anchored ones.
-/

namespace HealthService.Yaml

/-- A piece of a document. An alias names the slot of the node it stands for. -/
inductive Node where
  | scalar (tag : Option (List Char)) (style : Style) (text : List Char)
  | sequence (tag : Option (List Char)) (items : List Node)
  | mapping (tag : Option (List Char)) (pairs : List (Node × Node))
  | alias (slot : Nat)

/-- The scalar of a place where nothing is written. -/
def Node.empty : Node := .scalar none .plain []

/-- The anchors of a document. A name that is given away again gets the slot after all known names,
and a slot belongs to the node that took it last. -/
structure Anchors where
  names : List (List Char × Nat) := []
  /-- Which node has which slot, newest first. -/
  slots : List (Nat × Nat) := []
  /-- The finished nodes by number. -/
  nodes : List (Nat × Node) := []
  count : Nat := 0

/-- Gives a name to the next node. -/
def Anchors.open (a : Anchors) (name : List Char) : Nat × Anchors :=
  let slot := a.names.length
  let names := (name, slot) :: a.names.filter fun p => p.1 ≠ name
  (a.count, { a with names := names, slots := (slot, a.count) :: a.slots, count := a.count + 1 })

/-- Puts down a finished node. -/
def Anchors.close (a : Anchors) (number : Option Nat) (n : Node) : Anchors :=
  match number with
  | some k => { a with nodes := (k, n) :: a.nodes }
  | none => a

/-- The node in a slot. -/
def Anchors.node? (a : Anchors) (slot : Nat) : Option Node :=
  (a.slots.lookup slot).bind fun k => a.nodes.lookup k

/-- What reading nodes carries along: tokens, anchors, and what the handles of tags stand for. -/
structure Source where
  tokens : List Token
  anchors : Anchors := {}
  handles : List (List Char × List Char) := []

namespace Source

/-- The next token. -/
def peek (s : Source) : Option Token := s.tokens.head?

/-- After the next token. -/
def next (s : Source) : Source := { s with tokens := s.tokens.drop 1 }

/-- Whether the next token is one of some. -/
def sees (s : Source) (ts : List Token) : Bool :=
  match s.peek with
  | some t => ts.contains t
  | none => false

/-- The tag that a handle and a suffix stand for. -/
def resolveTag (s : Source) (handle suffix : List Char) : Option (List Char) :=
  if handle = [] then some suffix
  else (s.handles.lookup handle).map (· ++ suffix)

/-- What may stand before a node. -/
structure Properties where
  anchor : Option (List Char) := none
  tag : Option (List Char × List Char) := none

/-- Reads an anchor and a tag in either order. -/
def properties (s : Source) : Properties × Source :=
  match s.tokens with
  | .anchor a :: .tag h x :: rest => (⟨some a, some (h, x)⟩, { s with tokens := rest })
  | .tag h x :: .anchor a :: rest => (⟨some a, some (h, x)⟩, { s with tokens := rest })
  | .anchor a :: rest => (⟨some a, none⟩, { s with tokens := rest })
  | .tag h x :: rest => (⟨none, some (h, x)⟩, { s with tokens := rest })
  | _ => ({}, s)

/-- Takes up an anchor. -/
def openAnchor (s : Source) (anchor : Option (List Char)) : Option Nat × Source :=
  match anchor with
  | none => (none, s)
  | some name =>
    let (k, a) := s.anchors.open name
    (some k, { s with anchors := a })

/-- Puts down a finished node. -/
def finish (s : Source) (number : Option Nat) (n : Node) : Node × Source :=
  (n, { s with anchors := s.anchors.close number n })

/-- A scalar's tag; the mark alone is none. -/
def scalarTag (tag : Option (List Char)) : Option (List Char) := if tag = some ['!'] then none else tag

mutual

/-- Reads a node. Blocks are allowed only outside brackets; as a value of a block mapping a sequence
need not be indented. The first number bounds the steps. -/
def node : Nat → Bool → Bool → Source → Option (Node × Source)
  | 0, _, _, _ => none
  | n + 1, inBlock, indentless, s =>
    match s.peek with
    | some (.alias name) => do
      let slot ← s.anchors.names.lookup name
      some (.alias slot, s.next)
    | _ => do
      let (p, s) := s.properties
      let tag ← match p.tag with
        | none => some none
        | some (h, x) => (s.resolveTag h x).map some
      let (k, s) := s.openAnchor p.anchor
      match s.peek with
      | some (.scalar style text) => some (s.next.finish k (.scalar (scalarTag tag) style text))
      | some .flowSequenceStart =>
        let (items, s) ← flowItems n true [] s.next
        some (s.finish k (.sequence tag items))
      | some .flowMappingStart =>
        let (pairs, s) ← flowPairs n true [] s.next
        some (s.finish k (.mapping tag pairs))
      | t =>
        if indentless && t = some .blockEntry then do
          let (items, s) ← bareItems n [] s
          some (s.finish k (.sequence tag items))
        else if inBlock && t = some .blockSequenceStart then do
          let (items, s) ← blockItems n [] s.next
          some (s.finish k (.sequence tag items))
        else if inBlock && t = some .blockMappingStart then do
          let (pairs, s) ← blockPairs n [] s.next
          some (s.finish k (.mapping tag pairs))
        else if p.anchor.isSome || p.tag.isSome then some (s.finish k (.scalar tag .plain []))
        else none

/-- Reads a node, or an empty one if a token of some kinds comes next. -/
def nodeOr : Nat → Bool → Bool → List Token → Source → Option (Node × Source)
  | 0, _, _, _, _ => none
  | n + 1, inBlock, indentless, ends, s =>
    if s.sees ends then some (.empty, s) else node n inBlock indentless s

/-- Reads the items of an indented sequence, newest first in `acc`, and its end. -/
def blockItems : Nat → List Node → Source → Option (List Node × Source)
  | 0, _, _ => none
  | n + 1, acc, s =>
    if s.sees [.blockEntry] then do
      let (x, s) ← nodeOr n true false [.blockEntry, .blockEnd] s.next
      blockItems n (x :: acc) s
    else if s.sees [.blockEnd] then some (acc.reverse, s.next)
    else none

/-- Reads the items of a sequence that is not indented. -/
def bareItems : Nat → List Node → Source → Option (List Node × Source)
  | 0, _, _ => none
  | n + 1, acc, s =>
    if s.sees [.blockEntry] then do
      let (x, s) ← nodeOr n true false [.blockEntry, .key, .value, .blockEnd] s.next
      bareItems n (x :: acc) s
    else some (acc.reverse, s)

/-- Reads the pairs of a block mapping and its end. -/
def blockPairs : Nat → List (Node × Node) → Source → Option (List (Node × Node) × Source)
  | 0, _, _ => none
  | n + 1, acc, s =>
    if s.sees [.key] then do
      let (k, s) ← nodeOr n true true [.key, .value, .blockEnd] s.next
      if s.sees [.value] then
        let (v, s) ← nodeOr n true true [.key, .value, .blockEnd] s.next
        blockPairs n ((k, v) :: acc) s
      else blockPairs n ((k, .empty) :: acc) s
    else if s.sees [.blockEnd] then some (acc.reverse, s.next)
    else none

/-- Reads the items of a sequence in brackets and its end. -/
def flowItems : Nat → Bool → List Node → Source → Option (List Node × Source)
  | 0, _, _, _ => none
  | n + 1, first, acc, s =>
    if s.sees [.flowSequenceEnd] then some (acc.reverse, s.next)
    else if !first && !s.sees [.flowEntry] then none
    else
      let s := if first then s else s.next
      if s.sees [.flowSequenceEnd] then some (acc.reverse, s.next)
      else if s.sees [.key] then do
        let (x, s) ← flowPair n s.next
        flowItems n false (x :: acc) s
      else do
        let (x, s) ← node n false false s
        flowItems n false (x :: acc) s

/-- Reads a single pair as an item of a sequence in brackets. -/
def flowPair : Nat → Source → Option (Node × Source)
  | 0, _ => none
  | n + 1, s => do
    let (k, s) ← if s.sees [.value, .flowEntry, .flowSequenceEnd] then some (Node.empty, s.next)
      else node n false false s
    if s.sees [.value] then
      let (v, s) ← nodeOr n false false [.flowEntry, .flowSequenceEnd] s.next
      some (.mapping none [(k, v)], s)
    else some (.mapping none [(k, .empty)], s)

/-- Reads the pairs of a mapping in braces and its end. -/
def flowPairs : Nat → Bool → List (Node × Node) → Source → Option (List (Node × Node) × Source)
  | 0, _, _, _ => none
  | n + 1, first, acc, s =>
    if s.sees [.flowMappingEnd] then some (acc.reverse, s.next)
    else if !first && !s.sees [.flowEntry] then none
    else
      let s := if first then s else s.next
      if s.sees [.flowMappingEnd] then some (acc.reverse, s.next)
      else if s.sees [.key] then do
        let (k, s) ← nodeOr n false false [.value, .flowEntry, .flowMappingEnd] s.next
        if s.sees [.value] then
          let (v, s) ← nodeOr n false false [.flowEntry, .flowMappingEnd] s.next
          flowPairs n false ((k, v) :: acc) s
        else flowPairs n false ((k, .empty) :: acc) s
      else do
        let (k, s) ← node n false false s
        flowPairs n false ((k, .empty) :: acc) s

end

/-! ## Documents -/

/-- The handles that need no directive. -/
def defaultHandles : List (List Char × List Char) :=
  [(['!'], ['!']),
    (['!', '!'], "tag:yaml.org,2002:".toList)]

/-- Reads directives: at most one version, which has to be 1.1 or 1.2, and each handle once. -/
def directives : Nat → Bool → List (List Char × List Char) → Source →
    Option (List (List Char × List Char) × Source)
  | 0, _, hs, s => some (hs, s)
  | n + 1, versioned, hs, s =>
    match s.peek with
    | some (.versionDirective major minor) =>
      if versioned || major ≠ 1 || (minor ≠ 1 && minor ≠ 2) then none
      else directives n true hs s.next
    | some (.tagDirective handle start) =>
      if (hs.lookup handle).isSome then none
      else directives n versioned ((handle, start) :: hs) s.next
    | _ => some (hs, s)

/-- Whether a token begins a document that needs a mark. -/
def beginsMarked (s : Source) : Bool :=
  match s.peek with
  | some (.versionDirective ..) | some (.tagDirective ..) | some .documentStart => true
  | _ => false

/-- Whether a marked document ends before its node. -/
def endsAtOnce (s : Source) : Bool :=
  s.tokens.isEmpty || s.beginsMarked || s.sees [.documentEnd]

/-- Goes over marks of ends. -/
def skipEnds (s : Source) : Source :=
  { s with tokens := s.tokens.dropWhile (· = .documentEnd) }

/-- Reads a document; one without a mark only where that is allowed. -/
def document (s : Source) (bare : Bool) : Option (Node × Source) :=
  let fuel := 4 * s.tokens.length + 4
  let finish (r : Node × Source) : Node × Source :=
    (r.1, if r.2.sees [.documentEnd] then r.2.next else r.2)
  if bare && !s.beginsMarked then do
    let r ← node fuel true false { s with handles := defaultHandles }
    some (finish r)
  else do
    let (hs, s) ← directives fuel false [] s
    if s.sees [.documentStart] then
      let s := { s.next with handles := hs ++ defaultHandles }
      let r ← if s.endsAtOnce then some (Node.empty, s) else node fuel true false s
      some (finish r)
    else none

end Source

/-- A node with the anchored nodes that its aliases stand for; none if the text is empty. -/
structure Document where
  root : Option Node
  anchors : Anchors

/-- The node that another one stands for. -/
def Document.resolve (d : Document) (n : Node) : Node :=
  match n with
  | .alias slot => (d.anchors.node? slot).getD .empty
  | n => n

/-- The only document of a text. -/
def Document.ofText (text : List Char) : Option Document := do
  let tokens ← Token.ofText text
  let s : Source := { tokens := tokens }
  if s.tokens.isEmpty then some ⟨none, {}⟩
  else
    let (root, s) ← s.document true
    let s := s.skipEnds
    if s.tokens.isEmpty then some ⟨some root, s.anchors⟩ else none

end HealthService.Yaml
