import HealthService.Format.Basic
import HealthService.Yaml.Node

/-!
# Reading a format from YAML

The type of a plain scalar is not written but expected: the same letters are a number where a number
is expected and a text where a text is. A record or a list of which nothing is written is empty, and
an optional value is nothing if its scalar is empty or one of the words for it. A choice may be
written as a tag.

Readers of YAML tell only whether a document fits, not why.
-/

namespace HealthService

open Yaml

namespace Yaml

/-- The tag of a kind of scalar. -/
def kindTag (kind : String) : List Char := ("tag:yaml.org,2002:" ++ kind).toList

/-- The words for nothing. -/
def isNullWord (text : List Char) : Bool :=
  ["null", "Null", "NULL", "~"].contains (String.ofList text)

/-- Whether a scalar may be something else than a text: a plain one, or a kept block that says so in
its tag. -/
def mayBe (kind : String) (tag : Option (List Char)) (style : Style) : Bool :=
  style = .plain || (style = .literal && tag = some (kindTag kind))

/-- A truth value. -/
def readBool (text : List Char) : Option Bool :=
  let s := String.ofList text
  if s = "true" ∨ s = "True" ∨ s = "TRUE" then some true
  else if s = "false" ∨ s = "False" ∨ s = "FALSE" then some false
  else none

/-- Digits of a base up to sixteen. -/
def readBase (base : Nat) (text : List Char) : Option Nat :=
  if text = [] then none
  else (text.mapM IpAddress.hex?).bind fun ds =>
    if ds.all (· < base) then some (IpAddress.value base ds) else none

/-- A natural number: decimal without leading zeros, or in the base that its beginning names. -/
def readNat (text : List Char) : Option Nat :=
  let digits := match text with
    | '+' :: rest => rest
    | _ => text
  match digits with
  | '0' :: 'x' :: rest => readBase 16 rest
  | '0' :: 'o' :: rest => readBase 8 rest
  | '0' :: 'b' :: rest => readBase 2 rest
  | '0' :: _ :: _ => none
  | _ => readBase 10 digits

/-- Whether an optional value is nothing. -/
inductive Presence where
  | nothing
  | something
  /-- The scalar claims to be nothing but is not. -/
  | wrong
  deriving DecidableEq

/-- Whether a scalar stands for nothing where a value is optional. -/
def presence (tag : Option (List Char)) (style : Style) (text : List Char) : Presence :=
  if style ≠ .plain then .something
  else match tag with
    | some t =>
      if t = kindTag "null" then (if isNullWord text then .nothing else .wrong) else .something
    | none => if text = [] ∨ isNullWord text then .nothing else .something

/-- The name in a tag of one's own. -/
def ownTag (tag : Option (List Char)) : Option (List Char) :=
  match tag with
  | some ('!' :: c :: cs) => some (c :: cs)
  | _ => none

end Yaml

/-- A text. -/
def Yaml.Document.text (d : Document) (n : Node) : Option (List Char) :=
  match d.resolve n with
  | .scalar _ _ text => some text
  | _ => none

/-- The name of a choice. -/
def Yaml.Document.choice (d : Document) (n : Node) : Option (List Char) :=
  match d.resolve n with
  | .scalar tag style text =>
    match ownTag tag with
    | some name => if style = .plain ∧ (text = [] ∨ isNullWord text) then some name else none
    | none => some text
  | _ => none

/-- Whether nothing is written at a place. -/
def Yaml.Node.isVoid : Node → Bool
  | .scalar _ style text => style = .plain && text.isEmpty
  | _ => false

mutual

/-- Reads a value of a format from a node of a document. -/
def Format.readYaml : {α : Type} → Format α → Document → Node → Option α
  | _, .text, d, n => (d.text n).map String.ofList
  | _, .bool, d, n =>
    match d.resolve n with
    | .scalar tag style text => if mayBe "bool" tag style then readBool text else none
    | _ => none
  | _, .unsigned bits, d, n =>
    match d.resolve n with
    | .scalar tag style text =>
      if mayBe "int" tag style then
        (Yaml.readNat text).bind fun k => if h : k < Nat.pow 2 bits then some ⟨k, h⟩ else none
      else none
    | _ => none
  | _, .parsed _ read _, d, n => do
    let text ← d.text n
    (read (String.ofList text)).toOption
  | _, .choice values _ _, d, n => do
    let name ← d.choice n
    values.lookup (String.ofList name)
  | _, .optional format, d, n =>
    match d.resolve n with
    | .scalar tag style text =>
      match presence tag style text with
      | .nothing => some none
      | .something => (format.readYaml d n).map some
      | .wrong => none
    | _ => (format.readYaml d n).map some
  | _, .list item, d, n =>
    match d.resolve n with
    | .sequence _ items => items.mapM fun x => item.readYaml d x
    | n => if n.isVoid then some [] else none
  | _, .any, d, n => (d.text n).map fun t => .text (String.ofList t)
  | _, .record _ members build _ _, d, n => do
    let pairs ← match d.resolve n with
      | .mapping _ pairs => some pairs
      | n => if n.isVoid then some [] else none
    let state ← pairs.foldlM (fun state (k, v) => do
      let key ← d.text k
      members.putYaml d (String.ofList key) v state) members.start
    (members.finish state).toOption.map build
  | _, .map format make _ _, d, n => (format.readYaml d n).map make

/-- Puts the value of a key into the state of a record. -/
def Members.putYaml : {σ : Type} → (m : Members σ) → Document → String → Node → m.State →
    Option m.State
  | _, .nil, _, _, _, s => some s
  | _, .cons key format _ _ rest, d, k, v, s =>
    if k = key then
      match s.1 with
      | some _ => none
      | none => (format.readYaml d v).map fun a => (some a, s.2)
    else (rest.putYaml d k v s.2).map fun t => (s.1, t)
  | _, .others, d, k, v, s =>
    (d.text v).map fun t => Json.insertMember k (.text (String.ofList t)) s

end

/-- Reads a whole text. -/
def Format.ofYaml {α : Type} (format : Format α) (text : List Char) : Option α := do
  let d ← Document.ofText text
  format.readYaml d (d.root.getD .empty)

end HealthService
