import HealthService.Decimal.Shortest
import HealthService.Http.Message
import HealthService.Log.Event

/-!
# Log filters

A filter is written as directives with commas between them. A directive is a level, or a source with or
without a level behind an equals sign; it applies to all sources whose names begin like that. Of the
directives that apply to an event the one with the longest source decides, and of several with the same
source the last one. An event with no directive to it is not logged.
-/

namespace HealthService

/-- What a directive admits: everything from some level up, everything, or nothing. -/
inductive Threshold where
  | off
  | from (level : Level)
  | all
  deriving DecidableEq, Repr

/-- The rank of a level, highest for the most important. -/
def Level.rank : Level → Nat
  | .debug => 0
  | .info => 1
  | .warn => 2
  | .error => 3

namespace Threshold

/-- Whether a level is admitted. -/
def admits : Threshold → Level → Bool
  | .off, _ => false
  | .from least, level => least.rank ≤ level.rank
  | .all, _ => true

/-- The threshold with a name or a number; upper and lower case are the same. -/
def parse? (text : String) : Option Threshold :=
  let names : List (List String × Threshold) :=
    [(["off", "0"], .off), (["error", "1"], .from .error), (["warn", "2"], .from .warn),
      (["info", "3"], .from .info), (["debug", "4"], .from .debug), (["trace", "5"], .all)]
  (names.find? fun n => n.1.contains (Headers.lower text)).map Prod.snd

end Threshold

/-- A directive for the sources whose names begin with some text. -/
structure Directive where
  source : String
  threshold : Threshold
  deriving DecidableEq, Repr

/-- What is to be logged. -/
structure LogFilter where
  directives : List Directive
  deriving DecidableEq, Repr

/-- Whether a character may stand in the name of a source. -/
def Directive.isSourceChar (c : Char) : Bool :=
  c.isAlphanum || c = '_' || c = ':' || c = '-' || 128 ≤ c.toNat

/-- Reads a directive. -/
def Directive.parse? (text : String) : Option Directive :=
  match Threshold.parse? text with
  | some t => some ⟨"", t⟩
  | none =>
    let source := text.toList.takeWhile isSourceChar
    if source = [] then none
    else match text.toList.drop source.length with
      | [] => some ⟨text, .all⟩
      | ['='] => some ⟨String.ofList source, .all⟩
      | '=' :: level =>
        (Threshold.parse? (String.ofList level)).map fun t => ⟨String.ofList source, t⟩
      | _ => none

namespace LogFilter

/-- Everything from level info up. -/
def standard : LogFilter := ⟨[⟨"", .from .info⟩]⟩

/-- Reads a filter. If it has no directives, errors are logged. -/
def parse? (text : String) : Option LogFilter :=
  match (text.splitOn ",").filter (· ≠ "") with
  | [] => some ⟨[⟨"", .from .error⟩]⟩
  | ds => (ds.mapM Directive.parse?).map LogFilter.mk

/-- The more specific one of two directives, the second if they are alike. -/
def moreSpecific (a b : Directive) : Directive :=
  if b.source.length < a.source.length then a else b

/-- The directive that decides about a source. -/
def deciding? (f : LogFilter) (source : String) : Option Directive :=
  (f.directives.filter fun d => d.source.toList.isPrefixOf source.toList).foldl
    (fun best d => some (match best with
      | some b => moreSpecific b d
      | none => d)) none

/-- Whether an event of a source is logged. -/
def admits (f : LogFilter) (source : String) (e : Event) : Bool :=
  match f.deciding? source with
  | some d => d.threshold.admits e.level
  | none => false

end LogFilter

end HealthService
