import ChartCompiler.Keyword

/-!
# Aggregates and measurement types

* `Aggregate` — the aggregate operations; `Aggregate.isCounting` singles out those whose result is a
  count and therefore never null.
* `Measurement` — the measurement type of a field; `isContinuous` and `isDiscrete` are disjoint, and
  geographic data is neither.
-/

namespace ChartCompiler

/-- **Aggregate operation.** -/
inductive Aggregate
  | argmax | argmin | average | count | distinct | max | mean | median | min | missing | product
  | q1 | q3 | stderr | stdev | stdevp | sum | valid | values | variance | variancep
deriving DecidableEq, Repr, Inhabited

namespace Aggregate

/-- The word of an operation. -/
def word : Aggregate → String
  | argmax => "argmax" | argmin => "argmin" | average => "average" | count => "count"
  | distinct => "distinct" | max => "max" | mean => "mean" | median => "median" | min => "min"
  | missing => "missing" | product => "product" | q1 => "q1" | q3 => "q3" | stderr => "stderr"
  | stdev => "stdev" | stdevp => "stdevp" | sum => "sum" | valid => "valid" | values => "values"
  | variance => "variance" | variancep => "variancep"

/-- The operations and their words. -/
instance : Keyword Aggregate where
  all := [argmax, argmin, average, count, distinct, max, mean, median, min, missing, product, q1,
    q3, stderr, stdev, stdevp, sum, valid, values, variance, variancep]
  name := word
  mem_all a := by cases a <;> decide
  nodup_names := by decide

/-- Operations whose result counts rows. -/
def isCounting : Aggregate → Bool
  | count | valid | missing | distinct => true
  | _ => false

end Aggregate

/-- **Measurement type** of a field. -/
inductive Measurement
  | quantitative | temporal | ordinal | nominal | geojson
deriving DecidableEq, Repr, Inhabited

namespace Measurement

/-- The word of a measurement type. -/
def word : Measurement → String
  | quantitative => "quantitative"
  | temporal => "temporal"
  | ordinal => "ordinal"
  | nominal => "nominal"
  | geojson => "geojson"

/-- The measurement types and their words. -/
instance : Keyword Measurement where
  all := [quantitative, temporal, ordinal, nominal, geojson]
  name := word
  mem_all m := by cases m <;> decide
  nodup_names := by decide

/-- Numbers and instants. -/
def isContinuous : Measurement → Bool
  | quantitative | temporal => true
  | _ => false

/-- Categories, ordered or not. -/
def isDiscrete : Measurement → Bool
  | ordinal | nominal => true
  | _ => false

end Measurement

end ChartCompiler
