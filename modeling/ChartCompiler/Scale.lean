import ChartCompiler.Keyword
import ChartCompiler.Json.Basic

/-!
# Scales

* `ScaleType` — the scale types. Their domains are discrete (`ordinal`, `bin-ordinal`, `point`,
  `band`) or continuous; `isContinuousToContinuous` singles out those that map numbers to positions.
* `ScaleRange` — a configured range: a step for each category, a named range, or listed values.
* `Scale` — what layout and placement see of a resolved scale; `Scale.innerPadding` and
  `Scale.outerPadding` are the paddings that the band count of an axis is computed with.
-/

namespace ChartCompiler

/-- **Scale type.** -/
inductive ScaleType
  | linear | log | pow | sqrt | symlog | identity | sequential | time | utc | quantile | quantize
  | threshold | binOrdinal | ordinal | point | band
deriving DecidableEq, Repr, Inhabited

namespace ScaleType

/-- The word of a scale type. -/
def word : ScaleType → String
  | linear => "linear" | log => "log" | pow => "pow" | sqrt => "sqrt" | symlog => "symlog"
  | identity => "identity" | sequential => "sequential" | time => "time" | utc => "utc"
  | quantile => "quantile" | quantize => "quantize" | threshold => "threshold"
  | binOrdinal => "bin-ordinal" | ordinal => "ordinal" | point => "point" | band => "band"

/-- The scale types and their words. -/
instance : Keyword ScaleType where
  all := [linear, log, pow, sqrt, symlog, identity, sequential, time, utc, quantile, quantize,
    threshold, binOrdinal, ordinal, point, band]
  name := word
  mem_all t := by cases t <;> decide
  nodup_names := by decide

/-- Whether the domain is a set of categories. -/
def hasDiscreteDomain : ScaleType → Bool
  | ordinal | binOrdinal | point | band => true
  | _ => false

/-- Whether domain and range are both continuous. -/
def isContinuousToContinuous : ScaleType → Bool
  | linear | log | pow | sqrt | symlog | time | utc => true
  | _ => false

end ScaleType

/-- **Configured range** of a scale. -/
inductive ScaleRange
  /-- The extent is the number of categories times this step. -/
  | step (size : Float)
  /-- A range known by name, such as `width` or `category`. -/
  | named (name : String)
  /-- The range values themselves. -/
  | values (items : List Json)

namespace ScaleRange

/-- Whether the range is given by a step. -/
def isStep : ScaleRange → Bool
  | step _ => true
  | _ => false

end ScaleRange

/-- **A resolved scale**, as far as layout and placement read it. -/
structure Scale where
  /-- The name, which the signal of its step is named after. -/
  name : String
  /-- The type. -/
  type : ScaleType
  /-- The configured range. -/
  range : Option ScaleRange := none
  /-- Whether the domain includes zero, if this is said. -/
  zero : Option Bool := none
  /-- The padding, where the two below are not given. -/
  padding : Option Float := none
  /-- The padding between bands. -/
  paddingInner : Option Float := none
  /-- The padding before the first band and behind the last one. -/
  paddingOuter : Option Float := none

namespace Scale

/-- The step of a scale whose range is given by a step. -/
def rangeStep? (s : Scale) : Option Float :=
  match s.range with
  | some (.step size) => some size
  | _ => none

/-- Whether the range is given by a step. -/
def hasStepRange (s : Scale) : Bool := s.range.any ScaleRange.isStep

/-- Padding between bands. Only band scales leave room for bands; every other scale counts points,
which is a padding of one. -/
def innerPadding (s : Scale) : Float :=
  match s.type with
  | .band => (s.paddingInner <|> s.padding).getD 0
  | _ => 1

/-- Padding before the first and after the last category. -/
def outerPadding (s : Scale) : Float := (s.paddingOuter <|> s.padding).getD 0

end Scale

end ChartCompiler
