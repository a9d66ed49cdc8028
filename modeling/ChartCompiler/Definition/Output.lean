import ChartCompiler.Channel
import ChartCompiler.Definition

/-!
# Output fields

The data flow writes the result of a field definition under a name of its own, such as
`bin_maxbins_10_a_end`, `mean_b`, `yearmonth_date` or `__count`.

* `FieldDef.outputName` — the flattened name of that field.
* `FieldDef.output` — **a reference to it**: a path with its dots escaped, or, given the name of a
  row, an access expression.
* `FieldDef.binRequiresRange` — whether a binned field is read through the label of its bin.
-/

namespace ChartCompiler

/-- **How an output field is referred to.** -/
structure OutputForm where
  /-- The row it is read from in an expression; none for a plain field reference. -/
  row : Option String := none
  /-- Added to every name, such as `end`. -/
  suffix : String := ""
  /-- Added before `suffix` to the names of compiler-made bins, such as `range` or `mid`. -/
  binSuffix : String := ""
deriving DecidableEq, Repr, Inhabited

namespace OutputForm

/-- The plain reference, with a suffix for compiler-made bins. -/
def ofBinSuffix (binSuffix : String) : OutputForm := { binSuffix := binSuffix }

end OutputForm

namespace FieldDef

/-- The name of what the data flow does to the field: its binning, else its aggregate, else its time
unit. -/
def operation? (d : FieldDef) : Option String :=
  d.bin.bind Binning.name? <|> d.aggregate.map Aggregate.word <|> d.timeUnit

/-- The output name before any suffix: the operation and the field, and one name for all counts. -/
def stem (d : FieldDef) : String :=
  let field := d.field.getD ""
  if d.aggregate = some .count then "__count"
  else
    match d.operation? with
    | some operation => if field.isEmpty then operation else operation ++ "_" ++ field
    | none => field

/-- The suffix of the output name. A count has no bins, whatever its field does. -/
def outputSuffix (d : FieldDef) (form : OutputForm) : String :=
  if d.isBinning && d.aggregate != some .count then form.binSuffix ++ form.suffix else form.suffix

/-- **The flattened name of the output field.** -/
def outputName (d : FieldDef) (form : OutputForm) : String :=
  if (d.outputSuffix form).isEmpty then d.stem else d.stem ++ "_" ++ d.outputSuffix form

/-- **A reference to the output field.** -/
def output (d : FieldDef) (form : OutputForm) : String :=
  match form.row with
  | some row => Expression.access row (d.outputName form)
  | none => escapePath (d.outputName form)

/-- Whether a binned field is read through the label of its bin: on a channel with a scale, when the
field is forced to be discrete. -/
def binRequiresRange (d : FieldDef) (channel : Channel) : Bool :=
  d.isBinning && channel.hasScale && d.type.any Measurement.isDiscrete

end FieldDef

end ChartCompiler
