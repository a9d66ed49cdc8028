import ChartCompiler.Channel
import ChartCompiler.Config
import ChartCompiler.Definition

/-!
# Place and span within a band

`FieldDef.bandPosition?` is the place of a mark within a band on `x` or `y`, and `FieldDef.bandSpan?`
the part of the band that it covers. An authored band settles both. A time unit without a range end
takes the configured values. A field binned by the compiler puts a mark in the middle of its bin,
and lets a mark that spans an interval cover the whole bin.
-/

namespace ChartCompiler.FieldDef

/-- Whether the field's time unit gives it a band: there is no other end of the range. -/
def hasUnitBand (d : FieldDef) (rangeEnd : Option ChannelDef) : Bool :=
  d.timeUnit.isSome && rangeEnd.isNone

/-- **The place of a mark within its band**, where it has one. -/
def bandPosition? (d : FieldDef) (channel : Channel) (rangeEnd : Option ChannelDef) (mark : MarkDef)
    (config : Config) : Option Float :=
  if !channel.isXY then none
  else if d.band.isSome then d.band
  else if d.hasUnitBand rangeEnd then config.timeUnitBandPosition mark
  else if d.isBinning then some 0.5
  else none

/-- **The part of its band that a mark covers**, where it has one. -/
def bandSpan? (d : FieldDef) (channel : Channel) (rangeEnd : Option ChannelDef) (mark : MarkDef)
    (config : Config) : Option Float :=
  if !channel.isXY then none
  else if d.band.isSome then d.band
  else if d.hasUnitBand rangeEnd then
    if mark.type.isRectBased then config.timeUnitBand mark else some 0
  else if d.isBinning then
    if mark.type.isRectBased then some 1 else some 0.5
  else none

end ChartCompiler.FieldDef
