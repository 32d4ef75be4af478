import HealthService.Format.Basic

/-!
# Writing a format as JSON text

The compact JSON text of a value of a format: a record is an object whose members come in the order
of the format, without those that are not to be written.
-/

namespace HealthService

open Json

mutual

/-- The text of a value of a format. -/
def Format.printJson : {α : Type} → Format α → α → List Char
  | _, .text, s => quote s
  | _, .bool, b => Json.print (.bool b)
  | _, .unsigned _, n => Decimal.ofNat n.val
  | _, .parsed _ _ write, a => quote (write a)
  | _, .choice _ nameOf _, a => quote (nameOf a)
  | _, .optional _, none => Json.print .null
  | _, .optional format, some a => format.printJson a
  | _, .list item, as => bracket (as.map fun a => item.printJson a)
  | _, .any, j => Json.print j
  | _, .record _ members _ parts _, a => brace (members.printJson (parts a))
  | _, .map format _ part _, b => format.printJson (part b)

/-- The texts of the members that are written. -/
def Members.printJson : {σ : Type} → Members σ → σ → List (List Char)
  | _, .nil, _ => []
  | _, .cons key format _ hidden rest, (a, s) =>
    if hidden a then rest.printJson s
    else Json.member key (format.printJson a) :: rest.printJson s
  | _, .others, ms => printMembers ms

end

/-- The text of a value as a string. -/
def Format.toJson {α : Type} (format : Format α) (a : α) : String :=
  String.ofList (format.printJson a)

end HealthService
