import ChartCompiler.Reference
import ChartCompiler.Reference.Validity

/-!
# References to fields and data, and positions between two of them

* `Source.ref` — the reference to a field or a datum through a scale.
* `Endpoint` — one end of an interval of positions.
* `Place` — a place between two endpoints: one of them, or a `Blend` of both with its weights;
  `Place.ofBand` is the place that a band gives.
* `interpolate` — **the reference to such a place**: one end read directly, or the scaled sum that
  `Blend.expression` writes out.
-/

namespace ChartCompiler

/-- **The reference to a field or a datum** through a scale. -/
def Source.ref (source : Source) (scale : Option String) (form : OutputForm)
    (offset : Option Offset) (band : Option Float) : ValueRef :=
  let plain : ValueRef :=
    match source with
    | .datum d => .ofValue d.datum
    | .field d => .ofField (d.output form)
  ((plain.withScale scale).withOffset offset).withBand band

/-! ## Endpoints -/

/-- **One end of an interval**: a field, under the name it is read by, or a datum. -/
inductive Endpoint
  | field (name : String)
  | datum (json : Json)

namespace Endpoint

/-- The end that a definition gives. -/
def ofSource (source : Source) (form : OutputForm) : Endpoint :=
  match source with
  | .field d => field (d.output form)
  | .datum d => datum d.datum

/-- The endpoint read directly. -/
def ref : Endpoint → ValueRef
  | field name => .ofField name
  | datum json => .ofValue json

/-- The endpoint as it stands in an expression. -/
def expression : Endpoint → String
  | field name => name
  | datum json => json.compact

end Endpoint

/-! ## Places between two endpoints -/

/-- **Two endpoints and the weights they are summed with.** -/
structure Blend where
  startWeight : Float
  start : Endpoint
  endWeight : Float
  stop : Endpoint

namespace Blend

/-- The sum written out. -/
def expression (b : Blend) : String :=
  Expression.number b.startWeight ++ " * " ++ b.start.expression ++ " + "
    ++ Expression.number b.endWeight ++ " * " ++ b.stop.expression

/-- The sum through a scale, or as it is. -/
def ref (b : Blend) (scale : Option String) : ValueRef :=
  match scale with
  | some name => .ofSignal ("scale(\"" ++ name ++ "\", " ++ b.expression ++ ")")
  | none => .ofSignal b.expression

end Blend

/-- **A place between two endpoints**: one of them, or a weighted sum of both. -/
inductive Place
  | direct (endpoint : Endpoint)
  | between (blend : Blend)

namespace Place

/-- **The place that a band gives.** At 0 it is the start, at 1 the end; any other band is the weight
of the start, and what is missing to 1 that of the end. -/
def ofBand (band : Float) (start stop : Endpoint) : Place :=
  if band == 0 then .direct start
  else if band == 1 then .direct stop
  else between { startWeight := band, start := start, endWeight := 1 - band, stop := stop }

/-- The reference to the place through a scale. -/
def ref (p : Place) (scale : Option String) : ValueRef :=
  match p with
  | direct endpoint => endpoint.ref.withScale scale
  | between blend => blend.ref scale

end Place

/-! ## Interpolation -/

/-- The place in a band where nothing says otherwise. -/
def defaultBandPosition : Float := 0.5

/-- The row that an endpoint is read from at a band: none where it is read directly. -/
def endpointRow (band : Float) : Option String :=
  if band == 0 || band == 1 then none else some dataRow

/-- The end of an interval: what the second definition gives, else the `end` field of the first. -/
def farEndpoint (source : Source) (rangeEnd : Option Source) (row : Option String) : Endpoint :=
  match rangeEnd with
  | some far => .ofSource far { row := row }
  | none => .ofSource source { row := row, suffix := "end" }

/-- The place between the ends of an interval that a band gives. -/
def intervalPlace (source : Source) (rangeEnd : Option Source) (startSuffix : String)
    (band : Float) : Place :=
  .ofBand band (.ofSource source { row := endpointRow band, suffix := startSuffix })
    (farEndpoint source rangeEnd (endpointRow band))

/-- **The reference to a place between the ends of an interval**, its middle where no band is
given. -/
def interpolate (scale : Option String) (source : Source) (rangeEnd : Option Source)
    (startSuffix : String) (offset : Option Offset) (band : Option Float) : ValueRef :=
  ((intervalPlace source rangeEnd startSuffix (band.getD defaultBandPosition)).ref
    scale).withOffset offset

end ChartCompiler
