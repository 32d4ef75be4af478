import HealthService.Config.Validate
import HealthService.FileState
import HealthService.Format.JsonPrinter
import HealthService.Format.JsonReader
import HealthService.Format.YamlReader

/-!
# Loading configurations

A configuration is a document of JSON or YAML, which the name of its file decides. `Config.parse`
reads and validates a text; `Config.load` does so with what a file holds.
-/

namespace HealthService

/-- The kinds of documents. -/
inductive Markup where
  | json
  | yaml
  deriving DecidableEq, Repr

/-- What follows the last point of a name, if something stands before it. -/
def Markup.extension? (name : List Char) : Option (List Char) :=
  let tail := name.reverse.takeWhile (· ≠ '.')
  match name.reverse.dropWhile (· ≠ '.') with
  | _ :: _ :: _ => some tail.reverse
  | _ => none

/-- The last part of a path that is neither empty nor a single point. -/
def Markup.fileName (path : String) : String :=
  (((path.splitOn "/").filter fun s => s ≠ "" && s ≠ ".").getLast?).getD ""

/-- The kind of the document in a file: YAML for two extensions, else JSON. -/
def Markup.ofPath (path : String) : Markup :=
  let name := Markup.fileName path
  let ext := if name = ".." then none else Markup.extension? name.toList
  if ext = some "yaml".toList ∨ ext = some "yml".toList then .yaml else .json

/-- Why there is no configuration. -/
inductive LoadError where
  | file (path : String) (error : FileError)
  | json (error : Json.Error)
  | yaml
  | invalid (error : ConfigError)

namespace LoadError

/-- What was tried, and then its causes from the outermost to the innermost. The reason why a
document of YAML does not fit is not told. -/
def chain : LoadError → List String
  | .file path error => ["Failed to read config file " ++ path, error.message]
  | .json error => ["Failed to parse JSON config", error.message]
  | .yaml => ["Failed to parse YAML config"]
  | .invalid error => ["Invalid configuration", error.message]

/-- An error with its causes in words. -/
def message (e : LoadError) : String := ": ".intercalate e.chain

end LoadError

namespace Config

/-- Reads a document. -/
def read (markup : Markup) (text : List Char) : Except LoadError Config :=
  match markup with
  | .json =>
    match Config.format.ofJson (Utf8.encode text) with
    | .ok c => .ok c
    | .error e => .error (.json e)
  | .yaml =>
    match Config.format.ofYaml text with
    | some c => .ok c
    | none => .error .yaml

/-- Reads a document and checks the rules on configurations. -/
def parse (markup : Markup) (text : List Char) : Except LoadError Config × List Entry :=
  match read markup text with
  | .error e => (.error e, [])
  | .ok c =>
    match c.validate with
    | (.ok _, entries) => (.ok c, entries)
    | (.error e, entries) => (.error (.invalid e), entries)

/-- Reads the configuration in a file. -/
def load (path : String) (file : FileState) : Except LoadError Config × List Entry :=
  match file.text with
  | .error e => (.error (.file path e), [])
  | .ok text => parse (.ofPath path) text

end Config

end HealthService
