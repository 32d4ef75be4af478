import HealthService.Decimal.Shortest

/-!
# Reports of errors

What a program says when it gives up: the error itself, then its causes, which are numbered if there
are several of them.
-/

namespace HealthService.ErrorReport

/-- A text behind a mark; its further lines are indented as far as the mark reaches. -/
def indent (mark space text : String) : String :=
  mark ++ ("\n" ++ space).intercalate (text.splitOn "\n")

/-- A cause with its number. -/
def numbered (n : Nat) (cause : String) : String :=
  let number := String.ofList (Decimal.ofNat n)
  indent (String.ofList (List.replicate (5 - number.length) ' ') ++ number ++ ": ") "       " cause

/-- The report of an error and its causes, from the outermost to the innermost. -/
def ofChain : List String → String
  | [] => ""
  | [error] => "Error: " ++ error ++ "\n"
  | [error, cause] => "Error: " ++ error ++ "\n\nCaused by:\n" ++ indent "    " "    " cause ++ "\n"
  | error :: causes =>
    "Error: " ++ error ++ "\n\nCaused by:\n"
      ++ String.join (causes.mapIdx fun n cause => numbered n cause ++ "\n")

end HealthService.ErrorReport
