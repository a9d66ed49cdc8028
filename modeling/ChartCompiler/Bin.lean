import ChartCompiler.Expression
import ChartCompiler.Naming

/-!
# Bins

A field is binned by the compiler, or arrives binned with the ends of each bin in two fields.

* `BinParams` — the parameters of compiler-made bins; `BinParams.normalized` is what plain binning
  asks for.
* `BinParams.name` — the part of the output field's name that tells binnings apart, such as
  `bin_maxbins_10`.
* `Binning` — the two ways a field is binned.
-/

namespace ChartCompiler

/-- **Parameters of compiler-made bins.** -/
structure BinParams where
  anchor : Option Float := none
  base : Option Float := none
  extent : Option (Float × Float) := none
  maxbins : Option UInt32 := none
  minstep : Option Float := none
  nice : Option Bool := none
  step : Option Float := none

namespace BinParams

/-- The number of bins when nothing is asked for. -/
def defaultMaxbins : UInt32 := 10

/-- The parameters of plain binning. -/
def normalized : BinParams := { maxbins := some defaultMaxbins }

/-- The parameters with the default number of bins where neither number nor width is given. -/
def normalize (p : BinParams) : BinParams :=
  if p.maxbins.isNone && p.step.isNone then { p with maxbins := some defaultMaxbins } else p

/-- The given parameters with their values as they stand in a name. -/
def parts (p : BinParams) : List (String × String) :=
  [ p.anchor.map fun x => ("anchor", Expression.number x),
    p.base.map fun x => ("base", Expression.number x),
    p.extent.map fun e => ("extent", Expression.number e.1 ++ "_" ++ Expression.number e.2),
    p.maxbins.map fun n => ("maxbins", n.toNat.repr),
    p.minstep.map fun x => ("minstep", Expression.number x),
    p.nice.map fun b => ("nice", if b then "true" else "false"),
    p.step.map fun x => ("step", Expression.number x) ].filterMap id

/-- **The name of a binning**: `bin` and the given parameters, as an identifier. -/
def name (p : BinParams) : String :=
  "bin" ++ String.join (p.parts.map fun part => identifier ("_" ++ part.1 ++ "_" ++ part.2))

end BinParams

/-- **How a field is binned.** -/
inductive Binning
  /-- The compiler bins the field with these parameters. -/
  | made (params : BinParams)
  /-- The data is binned; the field holds the start of each bin, another field its end. -/
  | given

namespace Binning

/-- Whether the compiler bins the field. -/
def isMade : Binning → Bool
  | made _ => true
  | given => false

/-- Whether the field arrives binned. -/
def isGiven : Binning → Bool
  | made _ => false
  | given => true

/-- The name of a binning made by the compiler. -/
def name? : Binning → Option String
  | made params => some params.name
  | given => none

end Binning

end ChartCompiler
