/-!
# Request targets

The target of a request is a path with a query, a whole URL, an authority or an asterisk. Only its
path decides which route it takes.
-/

namespace HealthService.Target

/-- What comes before a query or a fragment. -/
def beforeQuery (s : List Char) : List Char := s.takeWhile fun c => c ≠ '?' && c ≠ '#'

/-- What follows the first colon and two slashes. -/
def afterScheme? : List Char → Option (List Char)
  | [] => none
  | ':' :: '/' :: '/' :: rest => some rest
  | _ :: rest => afterScheme? rest

/-- The path of a target. A URL without a path has the path `/`, an authority has none. -/
def path (target : String) : String :=
  match target.toList with
  | [] => ""
  | '/' :: rest => String.ofList ('/' :: beforeQuery rest)
  | ['*'] => "*"
  | s =>
    match afterScheme? s with
    | none => ""
    | some rest =>
      let rest := rest.dropWhile fun c => c ≠ '/' && c ≠ '?' && c ≠ '#'
      match beforeQuery rest with
      | [] => "/"
      | p => String.ofList p

end HealthService.Target
