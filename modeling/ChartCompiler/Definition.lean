import ChartCompiler.Aggregate
import ChartCompiler.Bin

/-!
# Channel definitions

A channel is encoded by exactly one of four definitions.

* `FieldDef` — a data field, possibly binned, aggregated, or converted to a time unit.
* `DatumDef` — a data value that goes through the channel's scale.
* `Literal` — a visual value that does not: a constant, or the value of a signal.
* `SignalRef` — an expression the renderer evaluates.
* `ChannelDef` — one of the four. `Source` is one of the two that go through a scale.
-/

namespace ChartCompiler

/-- **A definition bound to a data field.** -/
structure FieldDef where
  field : Option String := none
  type : Option Measurement := none
  bin : Option Binning := none
  timeUnit : Option String := none
  aggregate : Option Aggregate := none
  /-- The place of the mark within a band, from 0 at its start to 1 at its end. -/
  band : Option Float := none

namespace FieldDef

/-- Whether a measurement type is given. The ends of a range go without. -/
def isTyped (d : FieldDef) : Bool := d.type.isSome

/-- Whether the field is an aggregate that counts rows. -/
def isCounting (d : FieldDef) : Bool := d.aggregate.any Aggregate.isCounting

/-- Whether the compiler bins the field. -/
def isBinning (d : FieldDef) : Bool := d.bin.any Binning.isMade

/-- Whether the field arrives binned. -/
def isBinned (d : FieldDef) : Bool := d.bin.any Binning.isGiven

end FieldDef

/-- **A data value that goes through the channel's scale.** -/
structure DatumDef where
  datum : Json
  type : Option Measurement := none
  band : Option Float := none

/-- **An expression the renderer evaluates.** -/
structure SignalRef where
  signal : String
deriving DecidableEq, Repr, Inhabited

/-- **A visual value**: a constant, or the value of a signal. -/
inductive Literal
  | signal (ref : SignalRef)
  | value (json : Json)

/-- **What encodes a channel.** -/
inductive ChannelDef
  | datum (definition : DatumDef)
  | value (literal : Literal)
  | signal (ref : SignalRef)
  | field (definition : FieldDef)

/-- **A definition that goes through a scale.** -/
inductive Source
  | field (definition : FieldDef)
  | datum (definition : DatumDef)

namespace Source

/-- The authored place within a band. -/
def band : Source → Option Float
  | field d => d.band
  | datum d => d.band

end Source

namespace ChannelDef

/-- The field definition of a channel encoded by a field. -/
def field? : ChannelDef → Option FieldDef
  | field d => some d
  | _ => none

/-- The definition of a channel that goes through a scale. -/
def source? : ChannelDef → Option Source
  | field d => some (.field d)
  | datum d => some (.datum d)
  | _ => none

end ChannelDef

end ChartCompiler
