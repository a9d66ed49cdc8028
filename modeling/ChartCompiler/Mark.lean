import ChartCompiler.Keyword

/-!
# Marks

* `Mark` — the mark types.
* `Mark.isPath` — marks drawn as connected paths, which skip invalid points by themselves.
* `Mark.isRectBased` — marks that span an interval rather than sit at a point.
* `InvalidMode` — what happens to null and NaN positions.
* `MarkDef` — a mark with the properties that placement reads.
-/

namespace ChartCompiler

/-- **Mark type.** -/
inductive Mark
  | arc | area | bar | circle | geoshape | image | line | point | rect | rule | square | text
  | tick | trail
deriving DecidableEq, Repr, Inhabited

namespace Mark

/-- The word of a mark type. -/
def word : Mark → String
  | arc => "arc" | area => "area" | bar => "bar" | circle => "circle" | geoshape => "geoshape"
  | image => "image" | line => "line" | point => "point" | rect => "rect" | rule => "rule"
  | square => "square" | text => "text" | tick => "tick" | trail => "trail"

/-- The mark types and their words. -/
instance : Keyword Mark where
  all := [arc, area, bar, circle, geoshape, image, line, point, rect, rule, square, text, tick,
    trail]
  name := word
  mem_all m := by cases m <;> decide
  nodup_names := by decide

/-- Marks drawn as connected paths. They leave out invalid points rather than move them. -/
def isPath : Mark → Bool
  | line | area | trail => true
  | _ => false

/-- Marks that span an interval of `x` or `y`. -/
def isRectBased : Mark → Bool
  | rect | bar | image | arc => true
  | _ => false

end Mark

/-- **Handling of invalid data** (null and NaN) on positional channels. -/
inductive InvalidMode
  /-- Invalid rows are filtered, and guarded positions fall back to the baseline. -/
  | filter
  /-- Invalid rows are left alone. -/
  | disabled
deriving DecidableEq, Repr, Inhabited

namespace InvalidMode

/-- The word of a mode. -/
def word : InvalidMode → String
  | filter => "filter"
  | disabled => "disabled"

/-- The two modes and their words. -/
instance : Keyword InvalidMode where
  all := [filter, disabled]
  name := word
  mem_all m := by cases m <;> decide
  nodup_names := by decide

end InvalidMode

/-- **A mark definition**: its type and the properties it sets itself. -/
structure MarkDef where
  /-- The type. -/
  type : Mark
  /-- How invalid data is handled, if the mark says so. -/
  invalid : Option InvalidMode := none
  /-- The part of a time unit that the mark fills. -/
  timeUnitBand : Option Float := none
  /-- The place of the mark in a time unit. -/
  timeUnitBandPosition : Option Float := none

end ChartCompiler
