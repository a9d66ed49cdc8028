import ChartCompiler.Definition.Output

/-!
# Validity tests

`validityTest` — the expression that tells whether a field holds a number that can be placed. Null,
undefined and NaN are invalid. The test for invalid data is the negation of the one for valid data.
-/

namespace ChartCompiler

/-- **The test that the field an expression reads is valid**, or that it is not. -/
def validityTest (access : String) (valid : Bool) : String :=
  if valid then "isValid(" ++ access ++ ") && isFinite(+" ++ access ++ ")"
  else "!isValid(" ++ access ++ ") || !isFinite(+" ++ access ++ ")"

/-- The row of the data that expressions read. -/
def dataRow : String := "datum"

/-- **The test that a definition's output field is invalid**, or that it is valid. -/
def FieldDef.invalidityTest (d : FieldDef) (invalid : Bool) : String :=
  validityTest (d.output { row := some dataRow }) (!invalid)

end ChartCompiler
