import ChartCompiler.Layout.Key
import ChartCompiler.Mark

/-!
# Configuration

Configuration supplies what a view or a mark leaves unset.

* `SizeSpec` — an authored view size: pixels, or a step for each category.
* `ViewConfig` — default sizes; `ViewConfig.discreteSize` falls back to the configured step.
* `MarkConfig` — mark properties, for all marks or for one mark type.
* `Config` — all of it, with `Config.markProperty`: **the definition first, then the entry of the
  mark type, then the entry for all marks**.
-/

namespace ChartCompiler

/-- **An authored view size.** -/
inductive SizeSpec
  /-- A number of pixels. -/
  | pixels (amount : Float)
  /-- A step for each category. -/
  | step (size : Float)
deriving Inhabited

namespace SizeSpec

/-- Whether the size is a step for each category. -/
def isStep : SizeSpec → Bool
  | step _ => true
  | pixels _ => false

/-- The number in the size, pixels or step alike. -/
def amount : SizeSpec → Float
  | pixels amount => amount
  | step size => size

/-- The step of a step size. -/
def step? : SizeSpec → Option Float
  | step size => some size
  | pixels _ => none

end SizeSpec

/-- **Default view sizes.** -/
structure ViewConfig where
  /-- The width of views with a continuous scale on `x`. -/
  continuousWidth : Float := 200
  /-- The height of views with a continuous scale on `y`. -/
  continuousHeight : Float := 200
  /-- The width of views without one, if it is configured. -/
  discreteWidth : Option SizeSpec := none
  /-- The height of views without one, if it is configured. -/
  discreteHeight : Option SizeSpec := none
  /-- The step of discrete views whose size is not configured. -/
  step : Float := 20

namespace ViewConfig

/-- The configured size of a view with a continuous scale. -/
def continuousSize (c : ViewConfig) : Dimension → Float
  | .width => c.continuousWidth
  | .height => c.continuousHeight

/-- The configured size of a view with a discrete scale, else the configured step. -/
def discreteSize (c : ViewConfig) : Dimension → SizeSpec
  | .width => c.discreteWidth.getD (.step c.step)
  | .height => c.discreteHeight.getD (.step c.step)

end ViewConfig

/-- **Configured mark properties.** -/
structure MarkConfig where
  /-- How invalid data is handled. -/
  invalid : Option InvalidMode := none
  /-- The part of a time unit that marks fill. -/
  timeUnitBand : Option Float := none
  /-- The place of marks in a time unit. -/
  timeUnitBandPosition : Option Float := none

/-- **Compiler configuration.** Invalid data is filtered and a time unit fills its band unless the
configuration says otherwise; a configured `mark` replaces these two defaults as a whole. -/
structure Config where
  /-- The default sizes of views. -/
  view : ViewConfig := {}
  /-- Properties of every mark. -/
  mark : MarkConfig := ⟨some .filter, some 1, none⟩
  /-- Properties of the marks of one type. -/
  marks : Table Mark MarkConfig := ∅

namespace Config

/-- **Looks up a mark property**: in the definition, then in the entry of its mark type, then in the
entry for all marks. -/
def markProperty {α : Type} (c : Config) (mark : MarkDef) (ofDef : MarkDef → Option α)
    (ofConfig : MarkConfig → Option α) : Option α :=
  ofDef mark <|> (c.marks.get? mark.type).bind ofConfig <|> ofConfig c.mark

/-- How a mark handles invalid data. -/
def invalidMode (c : Config) (mark : MarkDef) : Option InvalidMode :=
  c.markProperty mark MarkDef.invalid MarkConfig.invalid

/-- The part of a time unit's band that a mark spans. -/
def timeUnitBand (c : Config) (mark : MarkDef) : Option Float :=
  c.markProperty mark MarkDef.timeUnitBand MarkConfig.timeUnitBand

/-- The place of a mark within a time unit's band. -/
def timeUnitBandPosition (c : Config) (mark : MarkDef) : Option Float :=
  c.markProperty mark MarkDef.timeUnitBandPosition MarkConfig.timeUnitBandPosition

end Config

end ChartCompiler
