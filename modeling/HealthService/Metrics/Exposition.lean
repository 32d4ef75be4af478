import HealthService.Decimal.Shortest
import HealthService.Metrics.Basic

/-!
# Exposition of metrics

The text in which metrics are collected: families in the order of their names, each with a line of
help and one of its type, then a line for each series, sorted by the values of its labels. A family
without series is not shown.

Durations are shown as a histogram: for each bound how many of them it admits, then their sum in
seconds and their number.
-/

namespace HealthService.Metrics

/-- A character in the value of a label. -/
def escapeChar (c : Char) : List Char :=
  if c = '\\' then ['\\', '\\']
  else if c = '\n' then ['\\', 'n']
  else if c = '"' then ['\\', '"']
  else [c]

/-- A label with its value. -/
def label (l : String × String) : String :=
  l.1 ++ "=\"" ++ String.ofList (l.2.toList.flatMap escapeChar) ++ "\""

/-- The line of a series. -/
def line (name : String) (labels : List (String × String)) (value : String) : String :=
  let list := if labels.isEmpty then "" else
    "\x7b" ++ ",".intercalate (labels.map label) ++ "\x7d"
  name ++ list ++ " " ++ value ++ "\n"

/-- The two lines above the series of a family. -/
def heading (name help type : String) : String :=
  "# HELP " ++ name ++ " " ++ help ++ "\n# TYPE " ++ name ++ " " ++ type ++ "\n"

/-- A family, or nothing if it has no series. -/
def family (name help type : String) (series : List String) : String :=
  if series.isEmpty then "" else heading name help type ++ String.join series

/-! ## Durations -/

/-- The bounds of a histogram, in words and in nanoseconds. -/
def bounds : List (String × Duration) :=
  [("0.005", 5000000), ("0.01", 10000000), ("0.025", 25000000), ("0.05", 50000000),
    ("0.1", 100000000), ("0.25", 250000000), ("0.5", 500000000), ("1", 1000000000),
    ("2.5", 2500000000), ("5", 5000000000), ("10", 10000000000)]

/-- How many durations a bound admits. -/
def within (bound : Duration) (ds : List Duration) : Nat := (ds.filter (· ≤ bound)).length

/-- A duration in seconds. -/
def seconds (d : Duration) : Float :=
  Float.ofNat (d / Duration.perSecond)
    + Float.ofNat (d % Duration.perSecond) / Float.ofNat Duration.perSecond

/-- The sum of durations in seconds, added up in their order. -/
def sum (ds : List Duration) : Float := ds.foldl (fun s d => s + seconds d) 0

/-- Sums are written without exponents. -/
def sumStyle : DoubleStyle :=
  ⟨Decimal.plain, ['0'], ['i', 'n', 'f'], ['N', 'a', 'N']⟩

/-- A number in decimal. -/
def natText (n : Nat) : String := String.ofList (Decimal.ofNat n)

/-- The lines of a check's durations. -/
def histogram (name check : String) (ds : List Duration) : String :=
  let bucket (b : String × Nat) : String :=
    line (name ++ "_bucket") [("check", check), ("le", b.1)] (natText b.2)
  String.join ((bounds.map fun b => bucket (b.1, within b.2 ds)) ++
    [bucket ("+Inf", ds.length),
      line (name ++ "_sum") [("check", check)] (String.ofList (sumStyle.write (sum ds).toBits)),
      line (name ++ "_count") [("check", check)] (natText ds.length)])

/-! ## The whole text -/

/-- Series of check and status are sorted by the one, then by the other. -/
def before (a b : String × Status) : Bool :=
  if a.1 = b.1 then decide (a.2.name ≤ b.2.name) else decide (a.1 ≤ b.1)

/-- The text of all metrics. -/
def expose (m : Metrics) : String :=
  let durations := "vital_check_duration_seconds"
  let totals := "vital_checks_total"
  let ready := "vital_ready_status"
  let times := m.times.mergeSort fun a b => decide (a.1 ≤ b.1)
  let counts := m.totals.mergeSort fun a b => before a.1 b.1
  family durations "Health check duration in seconds" "histogram"
      (times.map fun t => histogram durations t.1 t.2)
    ++ family totals "Total health check executions" "counter"
      (counts.map fun c =>
        line totals [("check", c.1.1), ("status", c.1.2.name)] (natText c.2))
    ++ family ready "Last readiness result (1=ok, 0=error)" "gauge"
      [line ready [] (natText m.gauge)]

end HealthService.Metrics
