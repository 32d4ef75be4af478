import HealthService.Text.Utf8

/-!
# JSON values

A value is a tree of nulls, truth values, numbers, strings, lists and objects. A number is an
integer of at most sixty-four bits or a double, and the two are never confused: `1` and `1.0` are
different values. Objects are lists of members sorted by key without repetition; `insertMember`
keeps them so.
-/

namespace HealthService

/-- The integers that a number can hold exactly: those of signed and of unsigned words. -/
structure WordInt where
  val : Int
  low : -0x8000000000000000 ≤ val := by omega
  high : val < 0x10000000000000000 := by omega
  deriving DecidableEq

instance : Repr WordInt := ⟨fun w n => reprPrec w.val n⟩

/-- A natural number of sixty-four bits as a number. -/
def WordInt.ofUInt64 (n : UInt64) : WordInt :=
  ⟨n.toNat, by omega, by have := n.toNat_lt; omega⟩

/-- JSON values. Doubles are kept as their bits. -/
inductive Json where
  | null
  | bool (b : Bool)
  | int (n : WordInt)
  | float (bits : UInt64)
  | text (s : String)
  | list (items : List Json)
  | object (members : List (String × Json))
  deriving Repr

namespace Json

/-- The members of an object. -/
abbrev Members := List (String × Json)

/-- Puts a member at its place in the order of keys, in place of one with the same key. -/
def insertMember (key : String) (value : Json) : Members → Members
  | [] => [(key, value)]
  | (k, v) :: rest =>
    if key = k then (key, value) :: rest
    else if key < k then (key, value) :: (k, v) :: rest
    else (k, v) :: insertMember key value rest

/-- The object with these members; of several with one key the last counts. -/
def ofMembers (ms : Members) : Json :=
  .object (ms.foldl (fun acc m => insertMember m.1 m.2 acc) [])

/-- The value of a member of an object. -/
def get? (j : Json) (key : String) : Option Json :=
  match j with
  | .object ms => ms.lookup key
  | _ => none

/-- A natural number as a value, reduced to sixty-four bits. -/
def ofNat (n : Nat) : Json := .int (WordInt.ofUInt64 (UInt64.ofNat n))

mutual
/-- How deeply lists and objects are nested. -/
def depth : Json → Nat
  | .list items => depthOfList items + 1
  | .object members => depthOfMembers members + 1
  | _ => 0
/-- The greatest depth among the items of a list. -/
def depthOfList : List Json → Nat
  | [] => 0
  | j :: rest => max (depth j) (depthOfList rest)
/-- The greatest depth among the members of an object. -/
def depthOfMembers : List (String × Json) → Nat
  | [] => 0
  | (_, j) :: rest => max (depth j) (depthOfMembers rest)
end

end Json

end HealthService
