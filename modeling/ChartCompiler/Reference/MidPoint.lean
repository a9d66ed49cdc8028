import ChartCompiler.Definition.Band
import ChartCompiler.Notice
import ChartCompiler.Reference.Interpolation
import ChartCompiler.Scale
import ChartCompiler.Stack

/-!
# Mid points

* `Literal.channelRef` — the reference of a literal; on a matching positional channel the words
  `width` and `height` stand for the size of the enclosing group.
* `Placement` — everything the position of a mark along one channel depends on.
* `Placement.midPoint` — **the reference to the middle of a channel's extent**: the middle of a bin
  or a time unit, the place within a band, or the field itself.
* `Placement.guardedMidPoint` — the same, guarded against invalid data where such data would be
  drawn outside the plot.
-/

namespace ChartCompiler

/-! ## Literals -/

/-- The reference of a literal as it is. -/
def Literal.ref : Literal → ValueRef
  | .signal s => .ofSignal s.signal
  | .value json => .ofValue json

/-- The word that stands for the size of the enclosing group on a channel. -/
def Channel.groupWord? : Channel → Option String
  | .x | .x2 => some "width"
  | .y | .y2 => some "height"
  | _ => none

/-- **The reference of a literal on a channel.** -/
def Literal.channelRef (literal : Literal) (channel : Channel) : ValueRef :=
  match literal with
  | .value (.string word) =>
    if channel.groupWord? = some word then .ofGroup word else literal.ref
  | _ => literal.ref

/-! ## Placement -/

/-- **What the position of a mark along one channel depends on.** -/
structure Placement where
  channel : Channel
  /-- The definition of the channel. -/
  definition : Option ChannelDef := none
  /-- The definition of the channel that ends its range. -/
  rangeEnd : Option ChannelDef := none
  mark : MarkDef
  config : Config
  scaleName : Option String := none
  scale : Option Scale := none
  stack : Option Stack := none
  offset : Option Offset := none
  default : DefaultRef := .absent

namespace Placement

/-- The scale of the channel, if its domain is discrete. -/
def discreteScale? (p : Placement) : Option Scale :=
  p.scale.filter fun s => s.type.hasDiscreteDomain

/-- **The rule of scales**: the place within a band, else the field or datum itself. On channels
other than the positional ones marks stay in the middle of their band. -/
def scaleRef (p : Placement) (source : Source) : ValueRef :=
  match p.discreteScale? with
  | some scale =>
    let authored := if p.channel.isPosition then source.band else none
    let band := if scale.type = .band then some (authored.getD defaultBandPosition) else none
    source.ref p.scaleName (.ofBinSuffix "range") p.offset band
  | none => source.ref p.scaleName {} p.offset none

/-- Whether the compiler places a field by its bin or its time unit. -/
def hasInterval (d : FieldDef) (band : Option Float) : Bool :=
  d.isBinning || (band.any (· != 0) && d.timeUnit.isSome)

/-- **The rule of compiler-made intervals.** On `x` and `y` a continuous field sits between the ends
of its interval, or at the precomputed middle where a stack imputes rows that have no ends. Other
channels keep the start of the interval, so that marks and legends agree. -/
def intervalRef (p : Placement) (d : FieldDef) (band : Option Float) : ValueRef :=
  if p.channel.isXY && d.type.any Measurement.isContinuous then
    if p.stack.any Stack.impute then
      (Source.field d).ref p.scaleName (.ofBinSuffix "mid") p.offset none
    else
      interpolate p.scaleName (.field d) none "" p.offset band
  else
    let form := if d.binRequiresRange p.channel then .ofBinSuffix "range" else {}
    (Source.field d).ref p.scaleName form p.offset none

/-- The channel that a field with given bins asks for its far end. -/
def missingRangeEnd (c : Channel) : Channel := if c = .x then .x2 else .y2

/-- **The rule of bins and time units** for typed fields. A field that arrives binned sits between
the ends of its bin; if the far end is missing this is reported. Nothing leaves the field to the
rule of scales. -/
def binnedRef (p : Placement) (d : FieldDef) : Reported (Option ValueRef) :=
  let band := d.bandPosition? p.channel p.rangeEnd p.mark p.config
  if !d.isTyped then pure none
  else if hasInterval d band then pure (some (p.intervalRef d band))
  else if d.isBinned then
    match p.rangeEnd with
    | some (.field d₂) =>
      pure (some (interpolate p.scaleName (.field d) (some (.field d₂)) "" p.offset band))
    | _ => do
      Reported.report (.missingRangeEnd (missingRangeEnd p.channel))
      pure none
  else pure none

/-- The reference to a field: by its bin or time unit, else by its scale. -/
def fieldRef (p : Placement) (d : FieldDef) : Reported ValueRef := do
  let placed ← p.binnedRef d
  pure (placed.getD (p.scaleRef (.field d)))

/-- **The reference to the middle of a channel's extent.** -/
def midPoint (p : Placement) : Reported (Option ValueRef) :=
  match p.definition with
  | some (.field d) => do
    let ref ← p.fieldRef d
    pure (some ref)
  | some (.datum d) => pure (some (p.scaleRef (.datum d)))
  | some (.value literal) => pure (some ((literal.channelRef p.channel).withOffset p.offset))
  | some (.signal s) => pure (some (.ofSignal s.signal))
  | none => pure (p.default.resolve?.map fun ref => ref.withOffset p.offset)

end Placement

/-! ## The guard against invalid data -/

/-- **What invalid data is drawn as**: the left edge on `x`, the bottom elsewhere. -/
def FieldDef.invalidRef (d : FieldDef) (channel : Channel) : ValueRef :=
  let baseline : ValueRef :=
    if channel.main = .x then .ofValue (.ofInt 0) else .ofGroup "height"
  baseline.withTest (d.invalidityTest true)

/-- **Puts the test for invalid data before a reference.** Paths leave out invalid points by
themselves, and a mark may have the handling of invalid data disabled. -/
def FieldDef.guardInvalid (d : FieldDef) (channel : Channel) (mark : MarkDef) (config : Config)
    (ref : ValueRef) : ChannelRef :=
  if mark.type.isPath then .single ref
  else if config.invalidMode mark = some .disabled then .single ref
  else .conditional [d.invalidRef channel, ref]

namespace Placement

/-- The field whose invalid data would be drawn outside the plot: one that counts nothing, on a
positional channel with a continuous scale that leaves out zero. -/
def guardedField? (p : Placement) : Option FieldDef :=
  match p.definition, p.scale with
  | some (.field d), some scale =>
    if p.channel.isPosition && !d.isCounting && scale.type.isContinuousToContinuous
        && scale.zero = some false then some d
    else none
  | _, _ => none

/-- **The mid point, guarded against invalid data.** -/
def guardedMidPoint (p : Placement) : Reported (Option ChannelRef) := do
  let ref ← p.midPoint
  pure <| ref.map fun ref =>
    match p.guardedField? with
    | some d => d.guardInvalid p.channel p.mark p.config ref
    | none => .single ref

end Placement

end ChartCompiler
