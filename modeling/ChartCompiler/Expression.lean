import ChartCompiler.Decimal.Style
import ChartCompiler.Json.Printer

/-!
# Pieces of renderer expressions

* `Expression.numeral` — **numbers in expressions** and in names made from them: never with an
  exponent, and without a point when they are whole.
* `Expression.access` — reads a flattened field from a row, as in `datum["a.b"]`.
-/

namespace ChartCompiler.Expression

/-- The style of numbers in expressions. -/
def numeral : Decimal.Style where
  positional := none
  wholePoint := false
  plusSign := false
  tie := .up

/-- A number as it stands in an expression. -/
def number (x : Float) : String := numeral.render x

/-- **Access to a field of a row** held by `object`. The name is not split at its dots. -/
def access (object field : String) : String := object ++ "[" ++ Json.quoted field ++ "]"

end ChartCompiler.Expression
