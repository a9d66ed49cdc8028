import ChartCompiler.Config
import ChartCompiler.Json.Parser
import ChartCompiler.Json.Printer
import ChartCompiler.Schema.Record

/-!
# JSON forms of marks and configuration

* `SizeSpec` — a number of pixels, or a record of a step.
* `InvalidMode.property?` — of a mark property, `null` turns the handling of invalid data off, while
  a missing property leaves it unset.
* `MarkDef`, `MarkConfig`, `ViewConfig`, `Config` — records. What a configuration leaves out has its
  default.
* `Config.ofText` — **reads a configuration from JSON text**; `Config.text` writes one. Members that
  `Config.shape` leaves out are read over, whatever they hold.
-/

namespace ChartCompiler

/-! ## Sizes -/

namespace SizeSpec

/-- **Reads a size.** -/
def ofJson? (j : Json) : Option SizeSpec :=
  (decode? j).map pixels <|> do
    let r ← Record.ofJson? ["step"] 1 j
    (r.required "step").map step

/-- Pixels are written as a number and a step as an object. -/
instance : Schema SizeSpec where
  decode? := ofJson?
  encode
    | pixels amount => encode amount
    | step size => .record [member "step" (some size)]

end SizeSpec

/-! ## Marks -/

/-- Reads the handling of invalid data. Null turns it off, unlike a missing property, which leaves
it to others. -/
def InvalidMode.property? (r : Record) : Option (Option InvalidMode) :=
  match r.get? "invalid" with
  | none => some none
  | some .null => some (some .disabled)
  | some j => (decode? j).map some

namespace MarkDef

/-- The properties in their fixed order. -/
def properties : List String := ["type", "invalid", "timeUnitBand", "timeUnitBandPosition"]

/-- **Reads a mark definition.** -/
def ofJson? (j : Json) : Option MarkDef := do
  let r ← Record.ofJson? properties 1 j
  let type ← r.required "type"
  let invalid ← InvalidMode.property? r
  let timeUnitBand ← r.optional "timeUnitBand"
  let timeUnitBandPosition ← r.optional "timeUnitBandPosition"
  some { type, invalid, timeUnitBand, timeUnitBandPosition }

/-- A mark definition is written as an object, in the order of names. -/
instance : Schema MarkDef where
  decode? := ofJson?
  encode d := .record [member "invalid" d.invalid, member "timeUnitBand" d.timeUnitBand,
    member "timeUnitBandPosition" d.timeUnitBandPosition, member "type" (some d.type)]

end MarkDef

namespace MarkConfig

/-- The properties in their fixed order. -/
def properties : List String := ["invalid", "timeUnitBand", "timeUnitBandPosition"]

/-- **Reads configured mark properties.** -/
def ofJson? (j : Json) : Option MarkConfig := do
  let r ← Record.ofJson? properties 0 j
  let invalid ← InvalidMode.property? r
  let timeUnitBand ← r.optional "timeUnitBand"
  let timeUnitBandPosition ← r.optional "timeUnitBandPosition"
  some { invalid, timeUnitBand, timeUnitBandPosition }

/-- Mark properties are written as an object, in the order of names. -/
instance : Schema MarkConfig where
  decode? := ofJson?
  encode c := .record [member "invalid" c.invalid, member "timeUnitBand" c.timeUnitBand,
    member "timeUnitBandPosition" c.timeUnitBandPosition]

end MarkConfig

/-! ## Configuration -/

namespace ViewConfig

/-- The properties in their fixed order. -/
def properties : List String :=
  ["continuousWidth", "continuousHeight", "discreteWidth", "discreteHeight", "step"]

/-- **Reads default view sizes.** -/
def ofJson? (j : Json) : Option ViewConfig := do
  let base : ViewConfig := {}
  let r ← Record.ofJson? properties 0 j
  let continuousWidth ← r.withDefault "continuousWidth" base.continuousWidth
  let continuousHeight ← r.withDefault "continuousHeight" base.continuousHeight
  let discreteWidth ← r.optional "discreteWidth"
  let discreteHeight ← r.optional "discreteHeight"
  let step ← r.withDefault "step" base.step
  some { continuousWidth, continuousHeight, discreteWidth, discreteHeight, step }

/-- View sizes are written as an object, in the order of names, those with a default always. -/
instance : Schema ViewConfig where
  decode? := ofJson?
  encode c := .record [member "continuousHeight" (some c.continuousHeight),
    member "continuousWidth" (some c.continuousWidth), member "discreteHeight" c.discreteHeight,
    member "discreteWidth" c.discreteWidth, member "step" (some c.step)]

end ViewConfig

/-- **Why a configuration is refused.** -/
inductive ConfigError
  /-- The text is no configuration. No more is said of it. -/
  | unreadable
deriving DecidableEq, Repr

/-- The text of an error. -/
def ConfigError.message : ConfigError → String
  | unreadable => "Config error: Failed to parse config"

namespace Config

/-- The properties in their fixed order. -/
def properties : List String := ["view", "mark", "marks"]

/-- **Reads a configuration.** -/
def ofJson? (j : Json) : Option Config := do
  let base : Config := {}
  let r ← Record.ofJson? properties 0 j
  let view ← r.withDefault "view" base.view
  let mark ← r.withDefault "mark" base.mark
  let marks ← r.withDefault "marks" base.marks
  some { view, mark, marks }

/-- A configuration is written as an object of its parts, in the order of names. -/
instance : Schema Config where
  decode? := ofJson?
  encode c := .record [member "mark" (some c.mark), member "marks" (some c.marks),
    member "view" (some c.view)]

/-- The parts of a text that are read. -/
def shape : Json.Shape :=
  .record [("view", .flat ViewConfig.properties), ("mark", .flat MarkConfig.properties),
    ("marks", .table (.flat MarkConfig.properties))]

/-- **Reads a configuration from JSON text.** -/
def ofText (text : String) : Except ConfigError Config :=
  match (Json.parsePart? shape text).bind ofJson? with
  | some c => .ok c
  | none => .error .unreadable

/-- A configuration as JSON text. -/
def text (c : Config) : String := (encode c).compact

end Config

end ChartCompiler
