import HealthService.Net.Address
import HealthService.Text.Utf8

/-!
# HTTP messages

Header names are kept in lower case. A name may have several values, whose order matters; the order
of different names does not.
-/

namespace HealthService

/-- Header lines in their order. -/
abbrev Headers := List (String × Bytes)

namespace Headers

/-- An ASCII letter in lower case. -/
def lowerChar (c : Char) : Char :=
  if 'A' ≤ c ∧ c ≤ 'Z' then Char.ofNat (c.toNat + 32) else c

/-- A name in lower case. -/
def lower (name : String) : String := String.ofList (name.toList.map lowerChar)

/-- The values of a name in their order. -/
def values (h : Headers) (name : String) : List Bytes :=
  (h.filter fun l => l.1 = name).map Prod.snd

/-- The first value of a name. -/
def first? (h : Headers) (name : String) : Option Bytes := h.lookup name

/-- Without the values of a name. -/
def erase (h : Headers) (name : String) : Headers := h.filter fun l => l.1 ≠ name

/-- With this value of a name in place of all others. -/
def insert (h : Headers) (name : String) (value : Bytes) : Headers :=
  h.erase name ++ [(name, value)]

/-- With one more value of a name. -/
def append (h : Headers) (name : String) (value : Bytes) : Headers := h ++ [(name, value)]

/-- Header lines with their names in lower case. -/
def ofLines (lines : List (String × Bytes)) : Headers := lines.map fun l => (lower l.1, l.2)

/-- Bytes that may stand in a header value: all but controls, the tab excepted. -/
def isValueByte (b : UInt8) : Bool := b = 0x09 || (0x20 ≤ b.toNat && b.toNat ≠ 0x7F)

/-- Whether bytes are the value of a header. -/
def isValue (b : Bytes) : Bool := b.all isValueByte

/-- The value that a text makes, if all its bytes may stand in one. -/
def value? (text : String) : Option Bytes :=
  if isValue (Utf8.ofString text) then some (Utf8.ofString text) else none

/-- With this value of a name in place of all others, if there is a value. -/
def insert? (h : Headers) (name : String) : Option Bytes → Headers
  | some value => h.insert name value
  | none => h

/-- The text of a value, if it consists of visible ASCII characters, spaces and tabs. -/
def text? (value : Bytes) : Option String :=
  if value.all fun b => b = 0x09 || (0x20 ≤ b.toNat && b.toNat < 0x7F) then
    some (String.ofList (value.map fun b => Char.ofNat b.toNat))
  else none

/-- The first value of a name, if it has one and that is a text. -/
def firstText? (h : Headers) (name : String) : Option String := (h.first? name).bind text?

theorem values_append (h : Headers) (name other : String) (value : Bytes) :
    (h.append name value).values other
      = h.values other ++ if name = other then [value] else [] := by
  unfold values append
  by_cases hn : name = other <;> simp [hn]

theorem values_erase (h : Headers) (name other : String) :
    (h.erase name).values other = if name = other then [] else h.values other := by
  unfold values erase
  rw [List.filter_filter]
  by_cases hn : name = other
  · subst hn
    rw [if_pos rfl, List.filter_eq_nil_iff.mpr]
    · rfl
    · intro l _
      by_cases hl : l.1 = name <;> simp [hl]
  · rw [if_neg hn]
    congr 1
    refine List.filter_congr fun l _ => ?_
    by_cases hl : l.1 = other
    · have : l.1 ≠ name := fun e => hn (e.symm.trans hl)
      simp [hl, Ne.symm hn]
    · simp [hl]

/-- After `insert` a name has exactly the given value, and all other names keep theirs. -/
theorem values_insert (h : Headers) (name other : String) (value : Bytes) :
    (h.insert name value).values other = if name = other then [value] else h.values other := by
  have := values_append (h.erase name) name other value
  unfold insert
  unfold append at this
  rw [this, values_erase]
  by_cases hn : name = other <;> simp [hn]

/-- Other names keep their values, whether or not there is a value to insert. -/
theorem values_insert?_of_ne (h : Headers) {name other : String} (hn : name ≠ other)
    (value : Option Bytes) : (h.insert? name value).values other = h.values other := by
  cases value with
  | none => rfl
  | some value => rw [insert?, values_insert, if_neg hn]

end Headers

/-- A request. The path is that of the target, without its query. -/
structure Request where
  method : String := "GET"
  path : String := "/"
  headers : Headers := []
  remote : Option Endpoint := none
  deriving DecidableEq, Repr

/-- A response. -/
structure Response where
  status : Nat := 200
  headers : Headers := []
  body : Bytes := []
  deriving DecidableEq, Repr

end HealthService
