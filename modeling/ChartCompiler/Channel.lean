import ChartCompiler.Keyword

/-!
# Encoding channels

* `Channel` — the visual properties a mark is encoded by, in their fixed order.
* `Channel.main` and `Channel.secondary?` — the two ends of a range channel (`x2` ends at `x`).
* `Channel.isPosition`, `isXY`, `hasScale` — the classes of channels that placement rules ask about.
-/

namespace ChartCompiler

/-- **Encoding channel** of a mark. -/
inductive Channel
  | x | y | x2 | y2
  | theta | theta2 | radius | radius2
  | color | fill | stroke | opacity
  | size | shape | text | tooltip | detail
deriving DecidableEq, Repr, Inhabited

namespace Channel

/-- The word of a channel. -/
def word : Channel → String
  | x => "x" | y => "y" | x2 => "x2" | y2 => "y2"
  | theta => "theta" | theta2 => "theta2" | radius => "radius" | radius2 => "radius2"
  | color => "color" | fill => "fill" | stroke => "stroke" | opacity => "opacity"
  | size => "size" | shape => "shape" | text => "text" | tooltip => "tooltip" | detail => "detail"

/-- The channels and their words, in their fixed order. -/
instance : Keyword Channel where
  all := [x, y, x2, y2, theta, theta2, radius, radius2, color, fill, stroke, opacity, size, shape,
    text, tooltip, detail]
  name := word
  mem_all c := by cases c <;> decide
  nodup_names := by decide

/-- The positional channels that own a scale. -/
def positionScales : List Channel := [x, y]

/-- The channel a secondary range channel ends (`x2` ends `x`); every other channel is its own. -/
def main : Channel → Channel
  | x2 => x
  | y2 => y
  | theta2 => theta
  | radius2 => radius
  | c => c

/-- The channel that ends a range begun by this one, for those that can begin a range. -/
def secondary? : Channel → Option Channel
  | x => some x2
  | y => some y2
  | theta => some theta2
  | radius => some radius2
  | _ => none

/-- The channels that place a mark in the plane: `x`, `y` and their range ends. -/
def isPosition : Channel → Bool
  | x | y | x2 | y2 => true
  | _ => false

/-- The two main positional channels. -/
def isXY : Channel → Bool
  | x | y => true
  | _ => false

/-- Whether the channel maps data through a scale of its own. -/
def hasScale : Channel → Bool
  | x | y | theta | radius | color | fill | stroke | opacity | size | shape => true
  | _ => false

end Channel

end ChartCompiler
